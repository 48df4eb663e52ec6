import FrontendAudit.Proofs.IssueLog.Stream
import Mathlib.Data.List.Induction

/-!
# The life of a log

A log may be called in any order: opened, which may fail, recorded to, and closed, with any steps of
its writer in between (`IssueLog.after`). It takes findings from the first attempt to open it until
it is closed, also when that attempt failed; and once it was closed, it holds on to a writer or a
file just when it was opened for the first time after that (`life_after_calls`). So a log does as
its callers expect if it is opened once, successfully, and then closed; but it can be recorded to
without the stream that it is to have, and a log that is opened after it was closed is never
released (`recorded_unopened_and_stranded`).
-/

namespace FrontendAudit

/-- A call on a log, or a step of its writer. -/
inductive LogCall where
  /-- Opens the log, where the stream file can be made or not. -/
  | start (possible : Bool)
  | record (f : Finding)
  /-- Closes the log, where the writes that are left meet with faults. -/
  | close (faults : Nat → Option WriteFault)
  | write (fault : Option WriteFault)

/-- Whether a log was closed in the course of some calls. -/
def LogCall.areClosing (calls : List LogCall) : Bool :=
  calls.any fun
    | .close _ => true
    | _ => false

/-- How a call was answered. -/
inductive LogAnswer where
  | started
  | notStarted (fault : IssueLog.OpenFault)
  | recorded (answer : IssueLog.Recorded)
  /-- The log takes no findings. -/
  | notOpen
  | done
  deriving DecidableEq, Repr

namespace IssueLog

open LogCall (areClosing)

/-- The answer to a call, and the log after it. -/
def call (log : IssueLog) : LogCall → LogAnswer × IssueLog
  | .start possible =>
    match log.start possible with
    | (.ok (), log) => (.started, log)
    | (.error fault, log) => (.notStarted fault, log)
  | .record f =>
    match log.record f with
    | some (answer, log, _) => (.recorded answer, log)
    | none => (.notOpen, log)
  | .close faults => (.done, (log.close faults).1)
  | .write fault => (.done, (log.write fault).1)

/-- A finding is not refused. -/
def Takes (log : IssueLog) (f : Finding) : Prop :=
  ∃ answer log', log.call (.record f) = (.recorded answer, log')

/-- The log after some calls. -/
def after (log : IssueLog) (calls : List LogCall) : IssueLog :=
  calls.foldl (fun log c => (log.call c).2) log

/-- Among some calls there is one with this answer, between the calls before it and those behind
it. -/
def Answered (log : IssueLog) (calls before behind : List LogCall) (answer : LogAnswer) : Prop :=
  ∃ c, calls = before ++ c :: behind ∧ ((log.after before).call c).1 = answer

/-- Among some calls there is one with this answer. -/
def Occurs (log : IssueLog) (calls : List LogCall) (answer : LogAnswer) : Prop :=
  ∃ before behind, log.Answered calls before behind answer

/-- An attempt was made to open a log, which may have failed for want of the stream file. -/
def WasTried (log : IssueLog) (calls : List LogCall) : Prop :=
  log.Occurs calls .started ∨ ∃ path, log.Occurs calls (.notStarted (.noStream path))

/-- A log was opened, and was not closed after that unless it had been closed before. -/
def StaysAtWork (log : IssueLog) (calls : List LogCall) : Prop :=
  ∃ before behind, log.Answered calls before behind .started ∧
    (areClosing behind = true → areClosing before = true)

/-- Only lines wait to be written. -/
def AwaitsLines (log : IssueLog) : Prop := ∃ waiting : List String, log.queue = waiting.map .line

/-! ## One call -/

section

variable {log : IssueLog}

/-- Everything that an attempt to open a log can do. -/
theorem call_start_cases (log : IssueLog) (possible : Bool) :
    (log.opened = true ∧ log.call (.start possible) = (.notStarted .openedBefore, log)) ∨
    (log.opened = false ∧ log.path = none ∧
      log.call (.start possible) = (.started, { log with opened := true })) ∨
    (∃ path, log.opened = false ∧ log.path = some path ∧ possible = true ∧
      log.call (.start possible) =
        (.started, { log with opened := true, handle := true, writing := true })) ∨
    ∃ path, log.opened = false ∧ log.path = some path ∧ possible = false ∧
      log.call (.start possible) = (.notStarted (.noStream path), { log with opened := true }) := by
  unfold call IssueLog.start
  cases hopened : log.opened with
  | true => exact .inl ⟨rfl, by simp⟩
  | false =>
      cases hpath : log.path with
      | none => exact .inr (.inl ⟨rfl, rfl, by simp⟩)
      | some path =>
          cases possible with
          | true => exact .inr (.inr (.inl ⟨path, rfl, rfl, rfl, by simp⟩))
          | false => exact .inr (.inr (.inr ⟨path, rfl, rfl, rfl, by simp⟩))

/-- A finding is refused when the log takes none, and then nothing changes. -/
theorem call_record_cases (f : Finding) (hlines : log.AwaitsLines) :
    (log.accepts = false ∧ log.call (.record f) = (.notOpen, log)) ∨
    ∃ answer log', log.accepts = true ∧ log.call (.record f) = (.recorded answer, log') ∧
      log'.opened = log.opened ∧ log'.closed = log.closed ∧ log'.path = log.path ∧
      log'.writing = log.writing ∧ log'.handle = log.handle ∧ log'.AwaitsLines := by
  cases haccepts : log.accepts with
  | false => exact .inl ⟨rfl, by simp [call, IssueLog.record, haccepts]⟩
  | true =>
      cases hrecord : log.record f with
      | none =>
          simp only [IssueLog.record, haccepts, Bool.not_true, Bool.false_eq_true,
            if_false] at hrecord
          split at hrecord <;> cases hrecord
      | some recorded =>
          obtain ⟨answer, log', notes⟩ := recorded
          refine .inr ⟨answer, log', rfl, by simp only [call, hrecord], ?_⟩
          obtain ⟨-, -, rfl, -⟩ | ⟨-, -, rfl, -⟩ := record_cases hrecord
          · exact ⟨rfl, rfl, rfl, rfl, rfl, hlines⟩
          · refine ⟨rfl, rfl, rfl, rfl, rfl, ?_⟩
            obtain ⟨waiting, hqueue⟩ := hlines
            cases hwriting : log.writing with
            | false => exact ⟨waiting, by simp [hqueue]⟩
            | true => exact ⟨waiting ++ [lineOf f], by simp [hqueue]⟩

/-- A step of a writer that has a line to write takes the line, whatever fault it meets with. -/
theorem write_line_frame {text : String} {queue : List QueueEntry} (hwriting : log.writing = true)
    (hqueue : log.queue = .line text :: queue) (fault : Option WriteFault) :
    (log.write fault).1.queue = queue ∧ (log.write fault).1.writing = true ∧
      (log.write fault).1.opened = log.opened ∧ (log.write fault).1.closed = log.closed ∧
      (log.write fault).1.path = log.path ∧
      ((log.write fault).1.handle = true → log.handle = true) := by
  unfold write
  simp only [hwriting, hqueue]
  split
  · exact ⟨rfl, rfl, rfl, rfl, rfl, id⟩
  · rcases fault with _ | reason | reason
    · exact ⟨rfl, rfl, rfl, rfl, rfl, id⟩
    · exact ⟨rfl, rfl, rfl, rfl, rfl, id⟩
    · exact ⟨rfl, rfl, rfl, rfl, rfl, nofun⟩

/-- A writer that takes everything up to the end mark is at work no longer. -/
theorem drain_endMark (log : IssueLog) (faults : Nat → Option WriteFault) {waiting : List String}
    (hwriting : log.writing = true) (hqueue : log.queue = waiting.map .line ++ [.endMark]) :
    (drain faults (waiting.length + 1) log).1.queue = [] ∧
      (drain faults (waiting.length + 1) log).1.writing = false ∧
      (drain faults (waiting.length + 1) log).1.opened = log.opened ∧
      (drain faults (waiting.length + 1) log).1.closed = log.closed ∧
      (drain faults (waiting.length + 1) log).1.path = log.path := by
  induction waiting generalizing log with
  | nil =>
      rw [List.length_nil, drain_succ, write_endMark hwriting hqueue]
      exact ⟨rfl, rfl, rfl, rfl, rfl⟩
  | cons text waiting ih =>
      obtain ⟨hqueue', hwriting', hopened, hclosed, hpath, -⟩ :=
        write_line_frame hwriting hqueue (faults (log.writes + 1))
      rw [List.length_cons, drain_succ, ← hopened, ← hclosed, ← hpath]
      exact ih _ hwriting' hqueue'

/-- What is left of a log whose writer has come to the end mark. -/
theorem fst_close_of_writing (faults : Nat → Option WriteFault) {waiting : List String}
    (hopen : log.closed = false) (hwriting : log.writing = true)
    (hqueue : log.queue = waiting.map .line) :
    (log.close faults).1 =
      { (drain faults (waiting.length + 1) log.marked).1 with handle := false } := by
  rw [← length_queue_marked hqueue]
  simp only [IssueLog.close, marked, hopen, hwriting, Bool.false_eq_true, if_false, if_true]

/-- A log that was closed before is left as it is; any other is released, whatever faults the last
writes meet with. -/
theorem call_close_cases (faults : Nat → Option WriteFault) (hlines : log.AwaitsLines) :
    (log.closed = true ∧ log.call (.close faults) = (.done, log)) ∨
    ∃ log', log.closed = false ∧ log.call (.close faults) = (.done, log') ∧
      log'.opened = log.opened ∧ log'.closed = true ∧ log'.path = log.path ∧
      log'.writing = false ∧ log'.handle = false ∧ log'.AwaitsLines := by
  obtain ⟨waiting, hqueue⟩ := hlines
  cases hclosed : log.closed with
  | true => exact .inl ⟨rfl, by simp [call, IssueLog.close, hclosed]⟩
  | false =>
      refine .inr ⟨_, rfl, rfl, ?_⟩
      cases hwriting : log.writing with
      | false =>
          rw [close_of_not_writing faults hclosed hwriting]
          exact ⟨rfl, rfl, rfl, hwriting, rfl, waiting, hqueue⟩
      | true =>
          obtain ⟨hempty, hended, hopened, hclosed', hpath⟩ :=
            drain_endMark log.marked faults hwriting (queue_marked hqueue)
          rw [fst_close_of_writing faults hclosed hwriting hqueue]
          exact ⟨hopened, hclosed', hpath, hended, rfl, [], hempty⟩

/-- A writer that is at work, and has lines to write at most, stays at work. -/
theorem call_write_cases (fault : Option WriteFault) (hlines : log.AwaitsLines) :
    ∃ log', log.call (.write fault) = (.done, log') ∧ log'.opened = log.opened ∧
      log'.closed = log.closed ∧ log'.path = log.path ∧ log'.writing = log.writing ∧
      (log'.handle = true → log.handle = true) ∧ log'.AwaitsLines := by
  refine ⟨_, rfl, ?_⟩
  obtain ⟨waiting, hqueue⟩ := hlines
  cases hwriting : log.writing with
  | false =>
      rw [write_of_not_writing hwriting]
      exact ⟨rfl, rfl, rfl, hwriting, id, waiting, hqueue⟩
  | true =>
      cases waiting with
      | nil =>
          rw [write_empty hqueue]
          exact ⟨rfl, rfl, rfl, hwriting, id, [], hqueue⟩
      | cons text waiting =>
          obtain ⟨hqueue', hwriting', hopened, hclosed, hpath, hhandle⟩ :=
            write_line_frame hwriting hqueue fault
          exact ⟨hopened, hclosed, hpath, hwriting', hhandle, waiting, hqueue'⟩

end

/-! ## Calls in a row -/

section

variable {log : IssueLog} {calls before behind : List LogCall} {c : LogCall} {answer : LogAnswer}

theorem after_concat (log : IssueLog) (calls : List LogCall) (c : LogCall) :
    log.after (calls ++ [c]) = ((log.after calls).call c).2 := by
  rw [after, List.foldl_append]
  rfl

theorem areClosing_append (calls calls' : List LogCall) :
    areClosing (calls ++ calls') = (areClosing calls || areClosing calls') := List.any_append

/-- A call among others is the last one or one before. -/
theorem answered_concat : log.Answered (calls ++ [c]) before behind answer ↔
    (before = calls ∧ behind = [] ∧ ((log.after calls).call c).1 = answer) ∨
      ∃ between, behind = between ++ [c] ∧ log.Answered calls before between answer := by
  constructor
  · rintro ⟨d, hcalls, hanswer⟩
    rcases List.eq_nil_or_concat behind with rfl | ⟨between, last, rfl⟩
    · obtain ⟨rfl, hd⟩ := List.append_inj' hcalls rfl
      obtain rfl := List.singleton_inj.mp hd
      exact .inl ⟨rfl, rfl, hanswer⟩
    · have hsplit : calls ++ [c] = (before ++ d :: between) ++ [last] := by simpa using hcalls
      obtain ⟨rfl, hlast⟩ := List.append_inj' hsplit rfl
      obtain rfl := List.singleton_inj.mp hlast
      exact .inr ⟨between, List.concat_eq_append, d, rfl, hanswer⟩
  · rintro (⟨rfl, rfl, hanswer⟩ | ⟨between, rfl, d, rfl, hanswer⟩)
    · exact ⟨c, rfl, hanswer⟩
    · exact ⟨d, by simp, hanswer⟩

theorem occurs_concat : log.Occurs (calls ++ [c]) answer ↔
    ((log.after calls).call c).1 = answer ∨ log.Occurs calls answer := by
  constructor
  · rintro ⟨before, behind, h⟩
    rcases answered_concat.mp h with ⟨-, -, hanswer⟩ | ⟨between, -, h⟩
    · exact .inl hanswer
    · exact .inr ⟨before, between, h⟩
  · rintro (hanswer | ⟨before, behind, h⟩)
    · exact ⟨calls, [], answered_concat.mpr (.inl ⟨rfl, rfl, hanswer⟩)⟩
    · exact ⟨before, behind ++ [c], answered_concat.mpr (.inr ⟨behind, rfl, h⟩)⟩

theorem wasTried_concat : log.WasTried (calls ++ [c]) ↔
    (((log.after calls).call c).1 = .started ∨
      ∃ path, ((log.after calls).call c).1 = .notStarted (.noStream path)) ∨
      log.WasTried calls := by
  simp only [WasTried, occurs_concat, exists_or]
  exact or_or_or_comm

theorem staysAtWork_concat : log.StaysAtWork (calls ++ [c]) ↔
    ((log.after calls).call c).1 = .started ∨
      (log.StaysAtWork calls ∧ (areClosing [c] = true → areClosing calls = true)) := by
  constructor
  · rintro ⟨before, behind, h, hclosing⟩
    rcases answered_concat.mp h with ⟨-, -, hanswer⟩ | ⟨between, rfl, hbetween⟩
    · exact .inl hanswer
    · rw [areClosing_append, Bool.or_eq_true] at hclosing
      refine .inr ⟨⟨before, between, hbetween, fun h => hclosing (.inl h)⟩, fun hc => ?_⟩
      obtain ⟨d, rfl, -⟩ := hbetween
      rw [areClosing_append, hclosing (.inr hc), Bool.true_or]
  · rintro (hanswer | ⟨⟨before, behind, h, hclosing⟩, hc⟩)
    · exact ⟨calls, [], answered_concat.mpr (.inl ⟨rfl, rfl, hanswer⟩), nofun⟩
    · refine ⟨before, behind ++ [c], answered_concat.mpr (.inr ⟨behind, rfl, h⟩), fun hbehind => ?_⟩
      rw [areClosing_append, Bool.or_eq_true] at hbehind
      rcases hbehind with hbehind | hclosed
      · exact hclosing hbehind
      · -- the log was closed before this call, and the call that opened it did not close it
        obtain ⟨d, rfl, hd⟩ := h
        have hcalls := hc hclosed
        rw [areClosing_append, Bool.or_eq_true] at hcalls
        rcases hcalls with hbefore | hrest
        · exact hbefore
        · refine hclosing ?_
          cases d with
          | close faults => cases hd
          | _ => exact hrest

end

/-! ## What a log has become -/

/-- What calls make of a log that is not open yet. -/
structure Lives (log : IssueLog) (calls : List LogCall) : Prop where
  path : (log.after calls).path = log.path
  closed : (log.after calls).closed = areClosing calls
  opened : (log.after calls).opened = true ↔ log.WasTried calls
  writing : (log.after calls).writing = true ↔ log.path.isSome = true ∧ log.StaysAtWork calls
  handle : (log.after calls).handle = true → (log.after calls).writing = true
  lines : (log.after calls).AwaitsLines

section

variable {log : IssueLog} {calls : List LogCall}

theorem Lives.new (category : String) (directory : Option Path) (limit : Int) :
    (new category directory limit).Lives [] where
  path := rfl
  closed := rfl
  opened := by
    refine iff_of_false Bool.false_ne_true ?_
    rintro (⟨before, behind, c, hcalls, -⟩ | ⟨path, before, behind, c, hcalls, -⟩)
    · exact List.cons_ne_nil _ _ (List.append_eq_nil_iff.mp hcalls.symm).2
    · exact List.cons_ne_nil _ _ (List.append_eq_nil_iff.mp hcalls.symm).2
  writing := by
    refine iff_of_false Bool.false_ne_true ?_
    rintro ⟨-, before, behind, ⟨c, hcalls, -⟩, -⟩
    exact List.cons_ne_nil _ _ (List.append_eq_nil_iff.mp hcalls.symm).2
  handle := id
  lines := ⟨[], rfl⟩

/-- A call that has no part in opening and closing leaves a log what it has become. -/
theorem Lives.aside (h : log.Lives calls) {c : LogCall} {answer : LogAnswer} {log' : IssueLog}
    (hcall : (log.after calls).call c = (answer, log')) (hstarted : answer ≠ .started)
    (hstream : ∀ path, answer ≠ .notStarted (.noStream path)) (hc : areClosing [c] = false)
    (hopened : log'.opened = (log.after calls).opened)
    (hclosed : log'.closed = (log.after calls).closed)
    (hpath : log'.path = (log.after calls).path)
    (hwriting : log'.writing = (log.after calls).writing)
    (hhandle : log'.handle = true → (log.after calls).handle = true)
    (hlines : log'.AwaitsLines) : log.Lives (calls ++ [c]) where
  path := by rw [after_concat, hcall, hpath, h.path]
  closed := by rw [after_concat, hcall, hclosed, h.closed, areClosing_append, hc, Bool.or_false]
  opened := by
    rw [after_concat, hcall, hopened, h.opened, wasTried_concat, hcall]
    simp [hstarted, hstream]
  writing := by
    rw [after_concat, hcall, hwriting, h.writing, staysAtWork_concat, hcall]
    simp [hstarted, hc]
  handle := by
    rw [after_concat, hcall, hwriting]
    exact fun hlog' => h.handle (hhandle hlog')
  lines := by rwa [after_concat, hcall]

theorem Lives.start (h : log.Lives calls) (possible : Bool) :
    log.Lives (calls ++ [.start possible]) := by
  have hclosed : areClosing (calls ++ [.start possible]) = areClosing calls := by
    rw [areClosing_append]
    exact Bool.or_false _
  obtain ⟨-, hcall⟩ | ⟨-, hpath, hcall⟩ | ⟨path, -, hpath, -, hcall⟩ | ⟨path, -, hpath, -, hcall⟩ :=
    call_start_cases (log.after calls) possible
  · exact h.aside hcall nofun nofun rfl rfl rfl rfl rfl id h.lines
  · -- without a stream file there is nothing that could be at work
    have hnone : log.path.isSome = false := by rw [← h.path, hpath]; rfl
    have hidle : (log.after calls).writing = false := by
      rw [← Bool.not_eq_true, h.writing, hnone]
      exact fun hsome => Bool.false_ne_true hsome.1
    constructor <;> rw [after_concat, hcall]
    · exact h.path
    · rw [hclosed]
      exact h.closed
    · exact iff_of_true rfl (wasTried_concat.mpr (.inl (.inl (by rw [hcall]))))
    · rw [hnone]
      exact iff_of_false (fun htrue => Bool.false_ne_true (hidle.symm.trans htrue))
        fun hsome => Bool.false_ne_true hsome.1
    · exact h.handle
    · exact h.lines
  · have hsome : log.path.isSome = true := by rw [← h.path, hpath]; rfl
    constructor <;> rw [after_concat, hcall]
    · exact h.path
    · rw [hclosed]
      exact h.closed
    · exact iff_of_true rfl (wasTried_concat.mpr (.inl (.inl (by rw [hcall]))))
    · exact iff_of_true rfl ⟨hsome, staysAtWork_concat.mpr (.inl (by rw [hcall]))⟩
    · exact fun _ => rfl
    · exact h.lines
  · constructor <;> rw [after_concat, hcall]
    · exact h.path
    · rw [hclosed]
      exact h.closed
    · exact iff_of_true rfl (wasTried_concat.mpr (.inl (.inr ⟨path, by rw [hcall]⟩)))
    · rw [staysAtWork_concat, hcall]
      refine h.writing.trans (and_congr_right fun _ => ⟨fun hwork => .inr ⟨hwork, nofun⟩, ?_⟩)
      rintro (hanswer | ⟨hwork, -⟩)
      · cases hanswer
      · exact hwork
    · exact h.handle
    · exact h.lines

theorem Lives.record (h : log.Lives calls) (f : Finding) : log.Lives (calls ++ [.record f]) := by
  obtain ⟨-, hcall⟩ |
      ⟨answer, log', -, hcall, hopened, hclosed, hpath, hwriting, hhandle, hlines⟩ :=
    call_record_cases f h.lines
  · exact h.aside hcall nofun nofun rfl rfl rfl rfl rfl id h.lines
  · exact h.aside hcall nofun nofun rfl hopened hclosed hpath hwriting
      (fun hlog' => hhandle ▸ hlog')
      hlines

theorem Lives.close (h : log.Lives calls) (faults : Nat → Option WriteFault) :
    log.Lives (calls ++ [.close faults]) := by
  have hclosing : areClosing (calls ++ [.close faults]) = true := by
    rw [areClosing_append]
    exact Bool.or_true _
  obtain ⟨hclosed, hcall⟩ |
      ⟨log', hopen, hcall, hopened, hclosed, hpath, hwriting, hhandle, hlines⟩ :=
    call_close_cases faults h.lines
  · have hcalls : areClosing calls = true := h.closed ▸ hclosed
    constructor <;> rw [after_concat, hcall]
    · exact h.path
    · rw [hclosing]
      exact hclosed
    · rw [wasTried_concat, hcall]
      simpa using h.opened
    · rw [staysAtWork_concat, hcall]
      simpa [hcalls] using h.writing
    · exact h.handle
    · exact h.lines
  · have hcalls : areClosing calls = false := h.closed ▸ hopen
    constructor <;> rw [after_concat, hcall]
    · exact hpath.trans h.path
    · rw [hclosing]
      exact hclosed
    · rw [wasTried_concat, hcall, hopened]
      simpa using h.opened
    · -- nothing is at work in a log that was open until now
      refine iff_of_false (by rw [hwriting]; exact Bool.false_ne_true) ?_
      rw [staysAtWork_concat, hcall]
      rintro ⟨-, hanswer | ⟨-, hbefore⟩⟩
      · cases hanswer
      · exact Bool.false_ne_true (hcalls.symm.trans (hbefore rfl))
    · intro hlog'
      exact absurd (hhandle.symm.trans hlog') Bool.false_ne_true
    · exact hlines

theorem Lives.write (h : log.Lives calls) (fault : Option WriteFault) :
    log.Lives (calls ++ [.write fault]) := by
  obtain ⟨log', hcall, hopened, hclosed, hpath, hwriting, hhandle, hlines⟩ :=
    call_write_cases fault h.lines
  exact h.aside hcall nofun nofun rfl hopened hclosed hpath hwriting hhandle hlines

/-- Calls in any order make of a new log what `Lives` says. -/
theorem lives (category : String) (directory : Option Path) (limit : Int) (calls : List LogCall) :
    (new category directory limit).Lives calls := by
  induction calls using List.reverseRecOn with
  | nil => exact .new category directory limit
  | append_singleton calls c ih =>
      cases c with
      | start possible => exact ih.start possible
      | record f => exact ih.record f
      | close faults => exact ih.close faults
      | write fault => exact ih.write fault

theorem Lives.accepts_iff (h : log.Lives calls) :
    (log.after calls).accepts = true ↔ areClosing calls = false ∧ log.WasTried calls := by
  rw [accepts, Bool.and_eq_true, Bool.not_eq_true', h.closed, h.opened]
  exact and_comm

/-- A log that was closed holds on to what it was given after that. -/
theorem Lives.holdsResources_iff (h : log.Lives calls) (hclosed : areClosing calls = true) :
    (log.after calls).holdsResources = true ↔ log.path.isSome = true ∧
      ∃ before behind, areClosing before = true ∧ log.Answered calls before behind .started := by
  have hwriting : (log.after calls).holdsResources = true ↔ (log.after calls).writing = true := by
    rw [holdsResources, Bool.or_eq_true]
    exact ⟨fun hheld => hheld.elim id h.handle, .inl⟩
  rw [hwriting, h.writing]
  refine and_congr_right fun _ => ⟨?_, ?_⟩
  · rintro ⟨before, behind, hstarted, hbehind⟩
    refine ⟨before, behind, ?_, hstarted⟩
    -- what closed the log stands before the call that opened it, since that call closed nothing
    obtain ⟨c, rfl, hanswer⟩ := hstarted
    rw [areClosing_append, Bool.or_eq_true] at hclosed
    refine hclosed.elim id fun hrest => hbehind ?_
    cases c with
    | close faults => cases hanswer
    | _ => exact hrest
  · rintro ⟨before, behind, hbefore, hstarted⟩
    exact ⟨before, behind, hstarted, fun _ => hbefore⟩

end

/-- Whatever calls are made on a log, it takes a finding exactly when it was not closed and it was
opened, or an attempt to open it failed for want of the stream file; a finding that it does not take
leaves it as it is. It was closed and still holds on to a writer or a file exactly when it has a
stream file and was opened after it had been closed. -/
theorem life_after_calls (category : String) (directory : Option Path) (limit : Int)
    (calls : List LogCall) :
    let log := new category directory limit
    (∀ f, (log.after calls).Takes f ↔ areClosing calls = false ∧
      (log.Occurs calls .started ∨ ∃ path, log.Occurs calls (.notStarted (.noStream path)))) ∧
    (∀ f, (log.after calls).Takes f ∨
      (log.after calls).call (.record f) = (.notOpen, log.after calls)) ∧
    (areClosing calls = true ∧ (log.after calls).holdsResources = true ↔ directory.isSome = true ∧
      ∃ before behind, areClosing before = true ∧ log.Answered calls before behind .started) := by
  intro log
  have h : log.Lives calls := lives category directory limit calls
  refine ⟨?_, ?_, ?_⟩
  · intro f
    rw [← WasTried, ← h.accepts_iff]
    obtain ⟨haccepts, hcall⟩ | ⟨answer, log', haccepts, hcall, -⟩ := call_record_cases f h.lines
    · rw [Takes, hcall, haccepts]
      exact iff_of_false nofun Bool.false_ne_true
    · exact iff_of_true ⟨answer, log', hcall⟩ haccepts
  · intro f
    obtain ⟨-, hcall⟩ | ⟨answer, log', -, hcall, -⟩ := call_record_cases f h.lines
    · exact .inr hcall
    · exact .inl ⟨answer, log', hcall⟩
  · have hdirectory : log.path.isSome = directory.isSome := Option.isSome_map
    rw [← hdirectory]
    constructor
    · rintro ⟨hclosed, hheld⟩
      exact (h.holdsResources_iff hclosed).mp hheld
    · rintro ⟨hpath, before, behind, hbefore, hstarted⟩
      have hclosed : areClosing calls = true := by
        obtain ⟨c, rfl, -⟩ := hstarted
        rw [areClosing_append, hbefore, Bool.true_or]
      exact ⟨hclosed, (h.holdsResources_iff hclosed).mpr ⟨hpath, before, behind, hbefore, hstarted⟩⟩

/-- A log whose stream file could not be made takes a finding, although it was never opened; and a
log that is opened after it was closed holds on to its writer and its file, also when it is closed
again. -/
theorem recorded_unopened_and_stranded :
    let log := new "eslint" (some (.absolute ["out"])) 50000
    let finding : Finding :=
      { kind := "empty_aria", severity := .medium, message := "m1", file := some "src/App.jsx" }
    ((log.after [.start false]).Takes finding ∧ ¬ log.Occurs [.start false] .started) ∧
    (log.after [.close fun _ => none, .start true, .close fun _ => none]).holdsResources =
      true := by
  intro log finding
  refine ⟨⟨⟨_, _, rfl⟩, ?_⟩, by decide⟩
  rintro ⟨before, behind, c, hcalls, hanswer⟩
  obtain ⟨rfl, rfl, rfl⟩ : before = [] ∧ c = .start false ∧ behind = [] := by
    cases before with
    | nil => exact ⟨rfl, (List.cons.inj hcalls).1.symm, (List.cons.inj hcalls).2.symm⟩
    | cons d before => cases before <;> cases (List.cons.inj hcalls).2
  cases hanswer

end IssueLog

end FrontendAudit
