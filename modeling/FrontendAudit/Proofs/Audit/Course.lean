import FrontendAudit.Audit.Run

/-!
# The course of a run

No phase of a run is refused, so a run comes as far as its own steps let it: it ends where no files
are found or the log is not opened, or when the log is closed after something was raised, or when it
is done (`Audit.follow_eq`). What comes of an audit is told by its course (`Audit.runPaced_eq`).
-/

namespace FrontendAudit

namespace AuditRun

/-- A step is followed by the next one unless something is raised. -/
theorem bind_eq (step : AuditRun α) (next : α → AuditRun β) (c : AuditCourse) :
    (step >>= next) c = match step c with
      | (.ok x, c) => next x c
      | (.error e, c) => (.error e, c) := by
  show (match step c with | (x, c) => ExceptT.bindCont next x c) = _
  rcases step c with ⟨e | x, c⟩ <;> rfl

/-- A later phase is entered. -/
theorem enter_eq {now next : Phase} (h : now.rank < next.rank) (category : String)
    (report : Option Path) (w : World) (deeds : List Deed) :
    enter category next ⟨⟨now, report⟩, w, deeds⟩ =
      (.ok (), ⟨⟨next, report⟩, w, deeds ++ [.enters next]⟩) := by
  rw [enter, AuditState.enter, if_neg (Nat.not_le.mpr h)]

end AuditRun

namespace Audit

open AuditRun

/-- The deeds of a run that works with an open log. -/
def workDeeds (stream : Option Path) : List Deed :=
  [.enters .enumerating, .opens stream, .enters .scanning]

/-- The deeds of a run that has closed its log. -/
def closedDeeds (stream : Option Path) (came : Except Failure Unit) (left closed : IssueLog) :
    List Deed :=
  workDeeds stream ++ endDeeds came ++ [.enters .closing, .closes left closed]

/-- The deeds of a run that is done. -/
def doneDeeds (stream : Option Path) (left closed : IssueLog) (report : Option Path) :
    List Deed :=
  closedDeeds stream (.ok ()) left closed ++
    [.enters .aggregating, .enters .emitting, .reports report, .enters .done]

variable (a : Audit) (s : AuditSetup) (pace : Pace)

/-- The course of a run: how far it comes, and what is done on the way. -/
theorem follow_eq (earlier : Option Path) (w : World) :
    a.follow s pace ⟨⟨.idle, earlier⟩, w, []⟩ =
      match a.enumerate w with
      | (.error e, w) =>
        (.error e, ⟨⟨.enumerating, earlier⟩, w,
          [.enters .enumerating, .raises .enumeration e]⟩)
      | (.ok files, w) =>
        match openLog s a.category w with
        | (.error e, w) =>
          (.error e, ⟨⟨.enumerating, earlier⟩, w,
            [.enters .enumerating, .raises .opening e]⟩)
        | (.ok log, w) =>
          let (came, left, w) := scanAndRecord a s pace files log w
          let (closed, w) := closeLog s pace.faults left w
          match came with
          | .error e =>
            (.error e, ⟨⟨.closing, earlier⟩, w,
              closedDeeds log.path (.error e) left closed⟩)
          | .ok () =>
            let result := summarize s.host.now closed.kept
            let (report, w) := a.emit s result w
            (.ok result, ⟨⟨.done, report⟩, w, doneDeeds log.path left closed report⟩) := by
  simp only [follow, bind_eq]
  rw [enter_eq (by decide)]
  dsimp only [perform]
  rcases a.enumerate w with ⟨e | files, found⟩
  · rfl
  dsimp only
  rcases openLog s a.category found with ⟨e | log, opened⟩
  · rfl
  dsimp only [did, withLog, work]
  rw [enter_eq (by decide)]
  dsimp only
  rcases scanAndRecord a s pace files log opened with ⟨e | _, left, after⟩
  · rfl
  · rfl

/-- What comes of an audit that has not been run. -/
theorem runPaced_eq (state : AuditState) (w : World) : a.runPaced s pace state w =
    if state.phase ≠ .idle then ⟨.error (.alreadyRun a.category), state, w⟩
    else
      match a.enumerate w with
      | (.error e, w) => ⟨.error e, { state with phase := .enumerating }, w⟩
      | (.ok files, w) =>
        match openLog s a.category w with
        | (.error e, w) => ⟨.error e, { state with phase := .enumerating }, w⟩
        | (.ok log, w) =>
          let (came, log, w) := scanAndRecord a s pace files log w
          let (log, w) := closeLog s pace.faults log w
          match came with
          | .error e => ⟨.error e, { state with phase := .closing }, w⟩
          | .ok () =>
            let result := summarize s.host.now log.kept
            let (report, w) := a.emit s result w
            ⟨.ok result, { phase := .done, report }, w⟩ := by
  obtain ⟨phase, earlier⟩ := state
  by_cases hphase : phase = .idle
  · subst hphase
    rw [runPaced, if_neg (fun h => h rfl), if_neg (fun h => h rfl), follow_eq]
    rcases a.enumerate w with ⟨e | files, found⟩
    · rfl
    dsimp only
    rcases openLog s a.category found with ⟨e | log, opened⟩
    · rfl
    dsimp only
    rcases scanAndRecord a s pace files log opened with ⟨e | _, left, after⟩ <;> rfl
  · rw [runPaced, if_pos hphase, if_pos hphase]

end Audit

end FrontendAudit
