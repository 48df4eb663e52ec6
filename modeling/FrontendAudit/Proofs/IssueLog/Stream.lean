import FrontendAudit.Proofs.Finding.Record
import FrontendAudit.Proofs.IssueLog.Kept
import FrontendAudit.Proofs.Json.Inline

/-!
# What a log streams

An open log is recorded to while its writer works through the queue, in any interleaving of the two
(`IssueLog.play`). At every moment the lines that were written and those that still wait are
together the lines of the kept findings, in order (`Streams`); when the log is closed, nothing waits
any more (`Streams.close`). Each line is one line of text, from which the record of its finding can
be read back (`lines_of_written`).
-/

namespace FrontendAudit

/-- What happens to an open log: a finding is recorded, or the writer takes a step, which does not
fail. -/
inductive LogEvent where
  | record (f : Finding)
  | write
  deriving DecidableEq, Repr

/-- The findings that are recorded, in order. -/
def LogEvent.recorded : List LogEvent → List Finding
  | [] => []
  | .record f :: events => f :: recorded events
  | .write :: events => recorded events

namespace IssueLog

open LogEvent (recorded)

/-- What came of some events: the answers to the recordings, the log, and the notes. -/
structure Played where
  answers : List Recorded
  log : IssueLog
  notes : List Note
  deriving Repr

/-- Lets events happen one after the other; nothing, if a finding is not taken. -/
def play (log : IssueLog) : List LogEvent → Option Played
  | [] => some ⟨[], log, []⟩
  | .record f :: events =>
    match log.record f with
    | none => none
    | some (answer, log, notes) =>
      (log.play events).map fun p => ⟨answer :: p.answers, p.log, notes ++ p.notes⟩
  | .write :: events =>
    let (log, notes) := log.write none
    (log.play events).map fun p => { p with notes := notes ++ p.notes }

/-- While a log is open its writer is at work if there is a stream file, and the lines written, then
those that wait, are the lines of the kept findings. -/
structure Streams (log : IssueLog) : Prop where
  writing : log.writing = log.path.isSome
  handle : log.handle = log.path.isSome
  lines : log.path.isSome = true → ∃ waiting, log.queue = waiting.map .line ∧
    log.written ++ waiting = log.kept.map lineOf

/-! ## Recording -/

section

variable {limit : Nat} {given : List Finding} {log log' : IssueLog} {f : Finding}
  {answer : Recorded} {notes : List Note}

/-- A finding is either dropped or kept. -/
theorem record_cases (h : log.record f = some (answer, log', notes)) :
    (log.limit ≤ log.kept.length ∧ answer = .dropped ∧
      log' = { log with dropped := log.dropped + 1 } ∧
      notes = if log.dropped = 0 then [.warning log.limitText] else []) ∨
    (log.kept.length < log.limit ∧ answer = .kept ∧
      log' = { log with
        kept := log.kept ++ [f]
        queue := if log.writing then log.queue ++ [.line (lineOf f)] else log.queue } ∧
      notes = []) := by
  rw [IssueLog.record] at h
  split at h
  · cases h
  split at h
  · next hfull =>
      obtain ⟨rfl, rfl, rfl⟩ := h
      exact .inl ⟨hfull, rfl, rfl, rfl⟩
  · next hfree =>
      obtain ⟨rfl, rfl, rfl⟩ := h
      exact .inr ⟨by omega, rfl, rfl, rfl⟩

/-- A finding is kept when fewer were given than the limit; the first that is dropped is noted. -/
theorem Took.record_answer (h : Took limit given log)
    (hrecord : log.record f = some (answer, log', notes)) :
    answer = (if given.length < limit then .kept else .dropped) ∧
      notes = if given.length = limit then [.warning log.limitText] else [] := by
  have hkept := h.length_kept
  have hdropped := h.dropped
  obtain ⟨hfull, rfl, -, rfl⟩ | ⟨hfree, rfl, -, rfl⟩ := record_cases hrecord <;>
    rw [h.limit_eq] at *
  · have hle : ¬ given.length < limit := by omega
    refine ⟨(if_neg hle).symm, ?_⟩
    have hiff : log.dropped = 0 ↔ given.length = limit := by omega
    simp only [hiff]
  · have hlt : given.length < limit := by omega
    exact ⟨(if_pos hlt).symm, (if_neg (by omega)).symm⟩

theorem Streams.record (h : Streams log) (hrecord : log.record f = some (answer, log', notes)) :
    Streams log' := by
  obtain ⟨-, -, rfl, -⟩ | ⟨-, -, rfl, -⟩ := record_cases hrecord
  · exact { h with }
  · refine { h with lines := fun hpath => ?_ }
    obtain ⟨waiting, hqueue, hlines⟩ := h.lines hpath
    have hwriting : log.writing = true := h.writing.trans hpath
    refine ⟨waiting ++ [lineOf f], ?_, ?_⟩
    · show (if log.writing then log.queue ++ [.line (lineOf f)] else log.queue) = _
      rw [if_pos hwriting, hqueue, List.map_append]
      rfl
    · show log.written ++ (waiting ++ [lineOf f]) = (log.kept ++ [f]).map lineOf
      rw [← List.append_assoc, hlines, List.map_append]
      rfl

/-- What a log is made with stays, whatever is recorded. -/
theorem record_fixed (hrecord : log.record f = some (answer, log', notes)) :
    log'.category = log.category ∧ log'.path = log.path ∧ log'.limit = log.limit := by
  obtain ⟨-, -, rfl, -⟩ | ⟨-, -, rfl, -⟩ := record_cases hrecord <;> exact ⟨rfl, rfl, rfl⟩

end

/-! ## The writer -/

theorem write_of_not_writing {log : IssueLog} (h : log.writing = false)
    (fault : Option WriteFault) :
    log.write fault = (log, []) := by
  unfold write
  rw [h]

/-- The step of a writer that has a line to write. -/
theorem write_line {log : IssueLog} {text : String} {queue : List QueueEntry}
    (hwriting : log.writing = true) (hhandle : log.handle = true)
    (hqueue : log.queue = .line text :: queue) :
    log.write none = ({ log with
      queue, writes := log.writes + 1, written := log.written ++ [text] }, []) := by
  unfold write
  simp only [hwriting, hqueue, hhandle, Bool.not_true, Bool.false_eq_true, if_false]

theorem write_endMark {log : IssueLog} {queue : List QueueEntry} (hwriting : log.writing = true)
    (hqueue : log.queue = .endMark :: queue) (fault : Option WriteFault) :
    log.write fault = ({ log with queue, writing := false }, []) := by
  unfold write
  simp only [hwriting, hqueue]

theorem write_empty {log : IssueLog} (hqueue : log.queue = []) (fault : Option WriteFault) :
    log.write fault = (log, []) := by
  unfold write
  rw [hqueue]
  cases log.writing <;> rfl

/-- A step of the writer writes the first of the lines that wait. -/
theorem Streams.write {log : IssueLog} (h : Streams log) :
    Streams (log.write none).1 ∧ (log.write none).2 = [] := by
  cases hpath : log.path with
  | none =>
      have hwriting : log.writing = false := by rw [h.writing, hpath]; rfl
      rw [write_of_not_writing hwriting]
      exact ⟨h, rfl⟩
  | some path =>
      have hsome : log.path.isSome = true := by rw [hpath]; rfl
      obtain ⟨waiting, hqueue, hlines⟩ := h.lines hsome
      cases waiting with
      | nil =>
          rw [write_empty hqueue]
          exact ⟨h, rfl⟩
      | cons text waiting =>
          rw [write_line (h.writing.trans hsome) (h.handle.trans hsome) hqueue]
          refine ⟨{ h with lines := fun _ => ⟨waiting, rfl, ?_⟩ }, rfl⟩
          show log.written ++ [text] ++ waiting = log.kept.map lineOf
          rw [← hlines, List.append_assoc]
          rfl

theorem write_fixed (log : IssueLog) (fault : Option WriteFault) :
    (log.write fault).1.category = log.category ∧ (log.write fault).1.path = log.path ∧
      (log.write fault).1.limit = log.limit := by
  unfold write
  split
  · split
    · exact ⟨rfl, rfl, rfl⟩
    · cases fault with
      | none => exact ⟨rfl, rfl, rfl⟩
      | some fault => cases fault <;> exact ⟨rfl, rfl, rfl⟩
  · exact ⟨rfl, rfl, rfl⟩
  · exact ⟨rfl, rfl, rfl⟩

/-! ## Any interleaving of the two -/

theorem limitText_congr {log log' : IssueLog}
    (h : log'.category = log.category ∧ log'.path = log.path ∧ log'.limit = log.limit) :
    log'.limitText = log.limitText := by
  rw [limitText, limitText, h.1, h.2.2]

/-- How an open log that was given some findings comes through further events: those that find room
are kept, and the first that does not is noted. -/
structure ComesThrough (limit : Nat) (given : List Finding) (log : IssueLog)
    (events : List LogEvent) (p : Played) : Prop where
  took : Took limit (given ++ recorded events) p.log
  streams : Streams p.log
  path : p.log.path = log.path
  answers : p.answers = (List.range' given.length (recorded events).length).map
    fun i => if i < limit then .kept else .dropped
  notes : p.notes =
    if given.length ≤ limit ∧ limit < given.length + (recorded events).length
      then [.warning log.limitText] else []

section

variable {limit : Nat} {given : List Finding} {log log' : IssueLog} {events : List LogEvent}
  {p : Played}

theorem ComesThrough.nil (htook : Took limit given log) (hstreams : Streams log) :
    ComesThrough limit given log [] ⟨[], log, []⟩ where
  took := by rwa [recorded, List.append_nil]
  streams := hstreams
  path := rfl
  answers := rfl
  notes := by
    have hno : ¬ (given.length ≤ limit ∧ limit < given.length + 0) := by omega
    exact (if_neg hno).symm

theorem ComesThrough.record {f : Finding} {answer : Recorded} {notes : List Note}
    (htook : Took limit given log) (hrecord : log.record f = some (answer, log', notes))
    (h : ComesThrough limit (given ++ [f]) log' events p) :
    ComesThrough limit given log (.record f :: events) ⟨answer :: p.answers, p.log, notes ++
      p.notes⟩ := by
  obtain ⟨hanswer, hnotes⟩ := htook.record_answer hrecord
  have hfixed := record_fixed hrecord
  have hlength : (given ++ [f]).length = given.length + 1 := List.length_append
  refine ⟨?_, h.streams, h.path.trans hfixed.2.1, ?_, ?_⟩
  · have htook' := h.took
    rwa [List.append_assoc] at htook'
  · rw [hanswer, h.answers, hlength]
    rfl
  · -- the warning comes with the finding that is one too many
    rw [hnotes, h.notes, limitText_congr hfixed, hlength, recorded, List.length_cons]
    by_cases hnow : given.length = limit
    · rw [if_pos hnow, if_neg (by omega), if_pos (by omega)]
      rfl
    · have hiff : (given.length + 1 ≤ limit ∧
          limit < given.length + 1 + (recorded events).length) ↔
          (given.length ≤ limit ∧ limit < given.length + ((recorded events).length + 1)) := by
        omega
      rw [if_neg hnow, List.nil_append]
      simp only [hiff]

theorem ComesThrough.write (hstreams : Streams log)
    (h : ComesThrough limit given (log.write none).1 events p) :
    ComesThrough limit given log (.write :: events)
      { p with notes := (log.write none).2 ++ p.notes } := by
  have hfixed := log.write_fixed none
  refine { h with path := h.path.trans hfixed.2.1, notes := ?_ }
  show (log.write none).2 ++ p.notes = _
  rw [hstreams.write.2, h.notes, limitText_congr hfixed]
  rfl

/-- Recording and writing may take turns in any way. -/
theorem play_comesThrough (events : List LogEvent) (htook : Took limit given log)
    (hstreams : Streams log) :
    ∃ p, log.play events = some p ∧ ComesThrough limit given log events p := by
  induction events generalizing given log with
  | nil => exact ⟨_, rfl, .nil htook hstreams⟩
  | cons event events ih =>
      cases event with
      | record f =>
          obtain ⟨answer, log₁, notes, hrecord, htook₁⟩ := htook.record f
          obtain ⟨p, hplay, hthrough⟩ := ih htook₁ (hstreams.record hrecord)
          refine ⟨_, ?_, hthrough.record htook hrecord⟩
          simp only [play, hrecord, hplay, Option.map_some]
      | write =>
          obtain ⟨p, hplay, hthrough⟩ := ih (htook.write none) hstreams.write.1
          refine ⟨_, ?_, hthrough.write hstreams⟩
          simp only [play, hplay, Option.map_some]

end

/-! ## Closing -/

theorem drain_succ (faults : Nat → Option WriteFault) (fuel : Nat) (log : IssueLog) :
    drain faults (fuel + 1) log =
      ((drain faults fuel (log.write (faults (log.writes + 1))).1).1,
        (log.write (faults (log.writes + 1))).2 ++
          (drain faults fuel (log.write (faults (log.writes + 1))).1).2) := rfl

/-- The writer takes what waits, one line a step, and stops at the end mark. -/
theorem drain_lines (log : IssueLog) {waiting : List String} (hwriting : log.writing = true)
    (hhandle : log.handle = true) (hqueue : log.queue = waiting.map .line ++ [.endMark]) :
    drain (fun _ => none) (waiting.length + 1) log =
      ({ log with
        queue := [], writing := false, writes := log.writes + waiting.length
        written := log.written ++ waiting }, []) := by
  induction waiting generalizing log with
  | nil =>
      rw [List.length_nil, drain_succ, write_endMark hwriting hqueue]
      simp [drain]
  | cons text waiting ih =>
      rw [List.length_cons, drain_succ, write_line hwriting hhandle hqueue]
      have hrest := ih { log with
          queue := waiting.map .line ++ [.endMark]
          writes := log.writes + 1
          written := log.written ++ [text] } hwriting hhandle rfl
      refine (congrArg (fun x => (x.1, [] ++ x.2)) hrest).trans ?_
      simp [Nat.add_comm, Nat.add_left_comm]

section

variable {log : IssueLog}

theorem closed_of_accepts (h : log.accepts = true) : log.closed = false := by
  rw [accepts, Bool.and_eq_true, Bool.not_eq_true'] at h
  exact h.2

/-- What is noted at the end when findings were dropped. -/
def closingNotes (log : IssueLog) : List Note :=
  if log.dropped = 0 then []
  else [.warning ("[" ++ log.category ++ "] " ++ toString log.dropped ++
    " findings dropped past max_issues")]

/-- A log that nothing is written for is closed as it is. -/
theorem close_of_not_writing (faults : Nat → Option WriteFault) (hopen : log.closed = false)
    (hwriting : log.writing = false) :
    log.close faults = ({ log with closed := true, handle := false }, log.closingNotes) := by
  unfold close closingNotes
  simp only [hopen, hwriting, Bool.false_eq_true, if_false, List.nil_append]

/-- A log that takes no more findings, with the end mark behind what waits. -/
def marked (log : IssueLog) : IssueLog :=
  { log with closed := true, queue := log.queue ++ [.endMark] }

theorem queue_marked {waiting : List String} (hqueue : log.queue = waiting.map .line) :
    log.marked.queue = waiting.map .line ++ [.endMark] :=
  congrArg (· ++ [QueueEntry.endMark]) hqueue

theorem length_queue_marked {waiting : List String} (hqueue : log.queue = waiting.map .line) :
    log.marked.queue.length = waiting.length + 1 := by
  rw [queue_marked hqueue, List.length_append, List.length_map]
  rfl

/-- A log with a stream waits for its writer to take the lines that wait and to come to the end
mark. -/
theorem close_of_writing {waiting : List String} (hopen : log.accepts = true)
    (hwriting : log.writing = true) (hhandle : log.handle = true)
    (hqueue : log.queue = waiting.map .line) :
    log.close = ({ log with
      closed := true, queue := [], writing := false, handle := false
      writes := log.writes + waiting.length
      written := log.written ++ waiting }, log.closingNotes) := by
  have hlength : (log.queue ++ [QueueEntry.endMark]).length = waiting.length + 1 :=
    length_queue_marked hqueue
  have hdrain := drain_lines log.marked hwriting hhandle (queue_marked hqueue)
  unfold close closingNotes
  simp only [closed_of_accepts hopen, hwriting, Bool.false_eq_true, if_false, if_true, hlength]
  rw [marked, hwriting] at hdrain
  rw [hdrain]
  rfl

/-- When a log is closed the stream holds the line of each kept finding, and the log holds on to
nothing. -/
theorem Streams.close (h : Streams log) (hopen : log.accepts = true) :
    log.close.1.holdsResources = false ∧ log.close.1.kept = log.kept ∧
      log.close.1.dropped = log.dropped ∧ log.close.2 = log.closingNotes ∧
      (log.path.isSome = true → log.close.1.written = log.kept.map lineOf) := by
  cases hpath : log.path with
  | none =>
      have hwriting : log.writing = false := by rw [h.writing, hpath]; rfl
      rw [close_of_not_writing _ (closed_of_accepts hopen) hwriting]
      refine ⟨?_, rfl, rfl, rfl, fun hsome => Bool.noConfusion hsome⟩
      rw [holdsResources, hwriting]
      rfl
  | some path =>
      have hsome : log.path.isSome = true := by rw [hpath]; rfl
      obtain ⟨waiting, hqueue, hlines⟩ := h.lines hsome
      rw [close_of_writing hopen (h.writing.trans hsome) (h.handle.trans hsome) hqueue]
      exact ⟨rfl, rfl, rfl, rfl, fun _ => hlines⟩

end

/-! ## The lines of the stream -/

theorem toList_lineOf (f : Finding) : (lineOf f).toList = f.toRecord.compact.toList ++ ['\n'] := by
  rw [lineOf, String.toList_append]
  rfl

/-- The text of the stream has one line for each finding, and a record is read back from each. -/
theorem lines_of_written (findings : List Finding) :
    ∃ lines, (String.join (findings.map lineOf)).toList.splitOn '\n' = lines ++ [[]] ∧
      lines.map Json.parse? = findings.map fun f => some f.toRecord := by
  refine ⟨findings.map fun f => f.toRecord.compact.toList, ?_, ?_⟩
  · induction findings with
    | nil => rfl
    | cons f findings ih =>
        rw [List.map_cons, String.join_cons, String.toList_append, toList_lineOf, List.append_assoc,
          List.singleton_append, List.splitOn_append_cons_self_of_not_mem
            (Json.newline_not_mem_compact f.isExact_toRecord), ih]
        rfl
  · rw [List.map_map]
    refine List.map_congr_left fun f _ => ?_
    exact Json.parse?_compact f.isExact_toRecord

end IssueLog

end FrontendAudit
