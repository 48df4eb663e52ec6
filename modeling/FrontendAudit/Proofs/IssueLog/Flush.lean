import FrontendAudit.Proofs.IssueLog.Life

/-!
# What closing flushes

While a log is open its writer takes the lines of the kept findings one after the other, and the
others wait, whatever the writes meet with (`AtWork`). When the log is closed, the lines that wait
are handed to the writer in their order, so that the file gets each whose write comes off until it
breaks (`through`). Then no line waits any more, and the log holds on to nothing; the stream has
the lines of kept findings in order, which are all of them unless a write failed
(`AtWork.close`).
-/

namespace FrontendAudit

namespace IssueLog

/-- Some lines were taken by the writer, and the others wait. The writer wrote of those what it
could: as long as the file can be written it has tried each, and if every write came off, it wrote
all of them and the file is still open. -/
structure Mirrors (log : IssueLog) (taken waiting : List String) : Prop where
  lines : log.kept.map lineOf = taken ++ waiting
  sublist : log.written.Sublist taken
  le_writes : log.written.length ≤ log.writes
  tried : log.handle = true → log.writes = taken.length
  complete : log.writes = log.written.length → log.handle = true ∧ log.written = taken

/-- A log that takes findings, with its writer at work if it is to have a stream. -/
structure AtWork (log : IssueLog) (stream : Option Path) : Prop where
  path_eq : log.path = stream
  accepts : log.accepts = true
  writing : log.writing = stream.isSome
  /-- A log without a stream queues nothing. -/
  unqueued : stream = none → log.queue = [] ∧ log.handle = false
  queued : stream.isSome = true →
    ∃ taken waiting, log.queue = waiting.map .line ∧ log.Mirrors taken waiting

/-- The lines that come through when they are handed to the writer, where the faults are given by
the number of the write: all but those whose write fails, until the file breaks. -/
def through (faults : Nat → Option WriteFault) : Nat → List String → List String
  | _, [] => []
  | writes, text :: waiting =>
    match faults (writes + 1) with
    | none => text :: through faults (writes + 1) waiting
    | some (.unwritable _) => through faults (writes + 1) waiting
    | some (.broken _) => []

/-- A log that was closed when it was at work, and how it was left before. -/
structure Flushed (faults : Nat → Option WriteFault) (left closed : IssueLog)
    (stream : Option Path) : Prop where
  path_eq : closed.path = stream
  isClosed : closed.closed = true
  released : closed.holdsResources = false
  emptied : closed.queue = []
  kept_eq : closed.kept = left.kept
  /-- The lines that waited were handed to the writer, unless the file had broken before. -/
  handed : ∀ waiting : List String, left.queue = waiting.map .line →
    closed.written =
      left.written ++ if left.handle then through faults left.writes waiting else []
  /-- The stream has lines of kept findings only, in their order. -/
  sublist : stream.isSome = true → closed.written.Sublist (closed.kept.map lineOf)
  /-- It has all of them, unless a write failed. -/
  complete : stream.isSome = true → closed.writes = closed.written.length →
    closed.written = closed.kept.map lineOf

variable {log log' : IssueLog} {stream : Option Path} {taken waiting : List String}

/-! ## An open log -/

theorem AtWork.start {category : String} {directory : Option Path} {limit : Int}
    {possible : Bool}
    (h : (new category directory limit).start possible = (.ok (), log)) :
    log.AtWork log.path := by
  unfold IssueLog.start at h
  simp only [new, Bool.false_eq_true, if_false] at h
  cases directory with
  | none =>
      obtain ⟨-, rfl⟩ := Prod.mk.inj h
      exact ⟨rfl, rfl, rfl, fun _ => ⟨rfl, rfl⟩, fun hsome => Bool.noConfusion hsome⟩
  | some directory =>
      cases possible with
      | false => cases (Prod.mk.inj h).1
      | true =>
          obtain ⟨-, rfl⟩ := Prod.mk.inj h
          refine ⟨rfl, rfl, rfl, fun hnone => ?_, fun _ => ⟨[], [], rfl, ?_⟩⟩
          · cases hnone
          · exact ⟨rfl, .refl [], Nat.le_refl 0, fun _ => rfl, fun _ => ⟨rfl, rfl⟩⟩

theorem AtWork.record {f : Finding} {answer : Recorded} {notes : List Note}
    (h : log.AtWork stream) (hrecord : log.record f = some (answer, log', notes)) :
    log'.AtWork stream := by
  obtain ⟨-, -, rfl, -⟩ | ⟨-, -, rfl, -⟩ := record_cases hrecord
  · refine ⟨h.path_eq, h.accepts, h.writing, h.unqueued, fun hsome => ?_⟩
    obtain ⟨taken, waiting, hqueue, hmirrors⟩ := h.queued hsome
    exact ⟨taken, waiting, hqueue, { hmirrors with }⟩
  · refine ⟨h.path_eq, h.accepts, h.writing, fun hnone => ?_, fun hsome => ?_⟩
    · have hwriting : log.writing = false := by rw [h.writing, hnone]; rfl
      refine ⟨?_, (h.unqueued hnone).2⟩
      show (if log.writing then log.queue ++ [.line (lineOf f)] else log.queue) = _
      rw [hwriting, if_neg Bool.false_ne_true, (h.unqueued hnone).1]
    · obtain ⟨taken, waiting, hqueue, hmirrors⟩ := h.queued hsome
      refine ⟨taken, waiting ++ [lineOf f], ?_, { hmirrors with lines := ?_ }⟩
      · show (if log.writing then log.queue ++ [.line (lineOf f)] else log.queue) = _
        rw [h.writing, if_pos hsome, hqueue, List.map_append]
        rfl
      · show (log.kept ++ [f]).map lineOf = _
        rw [List.map_append, hmirrors.lines, List.append_assoc]
        rfl

/-- The writer takes the first line that waits, whatever the write meets with. -/
theorem Mirrors.write {text : String} {queue : List QueueEntry}
    (h : log.Mirrors taken (text :: waiting)) (hwriting : log.writing = true)
    (hqueue : log.queue = .line text :: queue) (fault : Option WriteFault) :
    (log.write fault).1.Mirrors (taken ++ [text]) waiting := by
  have hlines : log.kept.map lineOf = (taken ++ [text]) ++ waiting := by
    rw [h.lines, List.append_assoc]
    rfl
  have hsub : log.written.Sublist (taken ++ [text]) :=
    h.sublist.trans (List.sublist_append_left _ _)
  have hle := h.le_writes
  unfold IssueLog.write
  simp only [hwriting, hqueue]
  cases hhandle : log.handle with
  | false =>
      -- after a write that failed for good, lines are taken and dropped
      refine ⟨hlines, hsub, hle, fun hopen => ?_, fun heq => ?_⟩
      · exact absurd hopen Bool.false_ne_true
      · exact absurd (hhandle.symm.trans (h.complete heq).1) Bool.false_ne_true
  | true =>
      have htried : log.writes + 1 = (taken ++ [text]).length := by
        rw [h.tried hhandle, List.length_append, List.length_singleton]
      rcases fault with _ | reason | reason
      · have hwritten : (log.written ++ [text]).length = log.written.length + 1 :=
          List.length_append
        refine ⟨hlines, h.sublist.append (.refl _), ?_, fun _ => htried, fun heq => ⟨rfl, ?_⟩⟩
        · show (log.written ++ [text]).length ≤ log.writes + 1
          omega
        · change log.writes + 1 = (log.written ++ [text]).length at heq
          show log.written ++ [text] = taken ++ [text]
          rw [(h.complete (by omega)).2]
      · refine ⟨hlines, hsub, Nat.le_succ_of_le hle, fun _ => htried, fun heq => ?_⟩
        change log.writes + 1 = log.written.length at heq
        omega
      · refine ⟨hlines, hsub, Nat.le_succ_of_le hle, fun hopen => ?_, fun heq => ?_⟩
        · cases hopen
        · change log.writes + 1 = log.written.length at heq
          omega

theorem AtWork.write (h : log.AtWork stream) (fault : Option WriteFault) :
    (log.write fault).1.AtWork stream := by
  cases stream with
  | none =>
      rw [write_of_not_writing h.writing]
      exact h
  | some path =>
      obtain ⟨taken, waiting, hqueue, hmirrors⟩ := h.queued rfl
      cases waiting with
      | nil =>
          rw [write_empty hqueue]
          exact h
      | cons text waiting =>
          obtain ⟨hqueue', hwriting, hopened, hclosed, hpath, -⟩ :=
            write_line_frame h.writing hqueue fault
          refine ⟨hpath.trans h.path_eq, ?_, hwriting, fun hnone => ?_, fun _ => ?_⟩
          · have haccepts := h.accepts
            rwa [IssueLog.accepts, ← hopened, ← hclosed] at haccepts
          · cases hnone
          · exact ⟨_, waiting, hqueue', hmirrors.write h.writing hqueue fault⟩

/-! ## Closing -/

/-- The writer takes every line that waits. -/
theorem Mirrors.drain (faults : Nat → Option WriteFault) (h : log.Mirrors taken waiting)
    (hwriting : log.writing = true) (hqueue : log.queue = waiting.map .line ++ [.endMark]) :
    (drain faults (waiting.length + 1) log).1.Mirrors (taken ++ waiting) [] := by
  induction waiting generalizing log taken with
  | nil =>
      rw [List.length_nil, drain_succ, write_endMark hwriting hqueue, List.append_nil]
      exact { h with }
  | cons text waiting ih =>
      obtain ⟨hqueue', hwriting', -⟩ :=
        write_line_frame hwriting hqueue (faults (log.writes + 1))
      rw [List.length_cons, drain_succ, List.append_cons]
      exact ih (h.write hwriting hqueue _) hwriting' hqueue'

/-- What the writer writes of the lines that wait. -/
theorem drain_written (faults : Nat → Option WriteFault) (hwriting : log.writing = true)
    (hqueue : log.queue = waiting.map .line ++ [.endMark]) :
    (drain faults (waiting.length + 1) log).1.written =
      log.written ++ if log.handle then through faults log.writes waiting else [] := by
  induction waiting generalizing log with
  | nil =>
      rw [List.length_nil, drain_succ, write_endMark hwriting hqueue]
      show log.written = log.written ++ if log.handle then [] else []
      rw [ite_self, List.append_nil]
  | cons text waiting ih =>
      obtain ⟨hqueue', hwriting', -⟩ :=
        write_line_frame hwriting hqueue (faults (log.writes + 1))
      rw [List.length_cons, drain_succ]
      refine (ih hwriting' hqueue').trans ?_
      unfold IssueLog.write
      simp only [hwriting, hqueue, List.map_cons, List.cons_append]
      cases hhandle : log.handle with
      | false => simp
      | true =>
          rcases hfault : faults (log.writes + 1) with _ | reason | reason
          · simp [through, hfault]
          · simp [through, hfault]
          · simp [through, hfault]

/-- Whatever the last writes meet with, closing a log flushes its queue and releases it. -/
theorem AtWork.close (h : log.AtWork stream) (faults : Nat → Option WriteFault) :
    Flushed faults log (log.close faults).1 stream := by
  have hclosed := closed_of_accepts h.accepts
  have hwriting := h.writing
  cases stream with
  | none =>
      rw [close_of_not_writing faults hclosed hwriting]
      refine ⟨h.path_eq, rfl, ?_, (h.unqueued rfl).1, rfl, fun waiting _ => ?_,
        fun hsome => Bool.noConfusion hsome, fun hsome => Bool.noConfusion hsome⟩
      · rw [holdsResources, hwriting]
        rfl
      · rw [(h.unqueued rfl).2, if_neg Bool.false_ne_true, List.append_nil]
  | some path =>
      have hwriting : log.writing = true := hwriting
      obtain ⟨taken, waiting, hqueue, hmirrors⟩ := h.queued rfl
      have hqueue' := queue_marked hqueue
      obtain ⟨hempty, hended, -, hclosed', hpath⟩ :=
        drain_endMark log.marked faults hwriting hqueue'
      have hmarked : log.marked.Mirrors taken waiting := { hmirrors with }
      have hdrained := hmarked.drain faults hwriting hqueue'
      have hwritten : (drain faults (waiting.length + 1) log.marked).1.written = _ :=
        drain_written faults hwriting hqueue'
      have hlines := hdrained.lines
      rw [List.append_nil] at hlines
      have hkept := log.close_kept faults
      rw [fst_close_of_writing faults hclosed hwriting hqueue] at hkept ⊢
      refine ⟨hpath.trans h.path_eq, hclosed', ?_, hempty, hkept, fun waiting' hwaiting => ?_,
        fun _ => ?_, fun _ heq => ?_⟩
      · rw [holdsResources, hended]
        rfl
      · have hsame : waiting' = waiting := by
          rw [hqueue] at hwaiting
          exact ((List.map_inj_right fun _ _ heq => QueueEntry.line.inj heq).mp hwaiting).symm
        rw [hsame]
        exact hwritten
      · exact hlines ▸ hdrained.sublist
      · exact hlines ▸ (hdrained.complete heq).2

end IssueLog

end FrontendAudit
