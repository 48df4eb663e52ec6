import FrontendAudit.Proofs.Audit.Issues
import FrontendAudit.Proofs.IssueLog.Flush

/-!
# The phases of an audit

A run of an audit is taken apart into steps (`Audit.Step`). Each goes on to a phase, or does one
thing of what the phase is for; what is done between the opening and the closing of the log may
record findings, let the writer of the log take steps, change the world and raise at any time. The
history of a run is settled by where it stands (`Audit.Sound`), from which it follows that the
phases ascend, that an open log is closed whatever happens, and that a report is written only behind
that (`Audit.Orderly`). Running an audit at any pace is a run of this kind, with the same deeds, and
what its log meets with when it is closed is what the pace says (`run_orderly`).
-/

namespace FrontendAudit

/-- The phases that are entered, in order. -/
def Deed.entered (deeds : List Deed) : List Phase :=
  deeds.filterMap fun
    | .enters phase => some phase
    | _ => none

namespace Audit

open Deed (entered)

/-- Where a run stands: what it does next. -/
inductive Stand where
  | called
  | finding
  | opening
  | opened (log : IssueLog)
  | working (log : IssueLog)
  /-- The work is over, or has raised, and the log is still to be closed. -/
  | leaving (came : Except Failure Unit) (log : IssueLog)
  | closing (came : Except Failure Unit) (log : IssueLog)
  | closed (came : Except Failure Unit) (log : IssueLog)
  | aggregating (log : IssueLog)
  | aggregated (result : AuditResult)
  | emitting (result : AuditResult)
  | emitted (result : AuditResult)
  | ended (came : Except Failure AuditResult)

namespace Stand

/-- The phase that is entered next, if one is, and where the run stands then. -/
def entry? : Stand → Option (Phase × Stand)
  | called => some (.enumerating, finding)
  | opened log => some (.scanning, working log)
  | leaving came log => some (.closing, closing came log)
  | closed (.ok ()) log => some (.aggregating, aggregating log)
  | aggregated result => some (.emitting, emitting result)
  | emitted result => some (.done, ended (.ok result))
  | _ => none

/-- Where the run stands when a phase is refused; an open log is still to be closed. -/
def refused (e : Failure) : Stand → Stand
  | opened log => leaving (.error e) log
  | _ => ended (.error e)

end Stand

/-- A run so far, and where it stands. -/
structure Course extends AuditCourse where
  stand : Stand := .called

/-- One step of a run. -/
inductive Step (a : Audit) (s : AuditSetup) : Course → Course → Prop
  | enters {c : Course} {phase : Phase} {next : Stand} {state : AuditState}
      (hentry : c.stand.entry? = some (phase, next))
      (henter : c.state.enter a.category phase = .ok state) :
      Step a s c { c with stand := next, state, deeds := c.deeds ++ [.enters phase] }
  | refused {c : Course} {phase : Phase} {next : Stand} {e : Failure}
      (hentry : c.stand.entry? = some (phase, next))
      (henter : c.state.enter a.category phase = .error e) :
      Step a s c { c with stand := c.stand.refused e, deeds := c.deeds ++ [.raises .entering e] }
  | finds {c : Course} {files : List Path} {w : World} (hstand : c.stand = .finding)
      (hfinds : a.enumerate c.world = (.ok files, w)) :
      Step a s c { c with stand := .opening, world := w }
  | findsNot {c : Course} {e : Failure} {w : World} (hstand : c.stand = .finding)
      (hfinds : a.enumerate c.world = (.error e, w)) :
      Step a s c { c with
        stand := .ended (.error e)
        world := w
        deeds := c.deeds ++ [.raises .enumeration e] }
  | opens {c : Course} {log : IssueLog} {w : World} (hstand : c.stand = .opening)
      (hopens : openLog s a.category c.world = (.ok log, w)) :
      Step a s c { c with stand := .opened log, world := w, deeds := c.deeds ++ [.opens log.path] }
  | opensNot {c : Course} {e : Failure} {w : World} (hstand : c.stand = .opening)
      (hopens : openLog s a.category c.world = (.error e, w)) :
      Step a s c { c with
        stand := .ended (.error e)
        world := w
        deeds := c.deeds ++ [.raises .opening e] }
  | records {c : Course} {log log' : IssueLog} {f : Finding} {answer : IssueLog.Recorded}
      {notes : List Note} (hstand : c.stand = .working log)
      (hrecord : log.record f = some (answer, log', notes)) :
      Step a s c { c with stand := .working log' }
  | writes {c : Course} {log : IssueLog} (hstand : c.stand = .working log)
      (fault : Option WriteFault) :
      Step a s c { c with stand := .working (log.write fault).1 }
  | acts {c : Course} {log : IssueLog} (hstand : c.stand = .working log) (w : World) :
      Step a s c { c with world := w }
  | fails {c : Course} {log : IssueLog} (hstand : c.stand = .working log) (e : Failure) :
      Step a s c { c with
        stand := .leaving (.error e) log
        deeds := c.deeds ++ [.raises .scanning e] }
  | finishes {c : Course} {log : IssueLog} (hstand : c.stand = .working log) :
      Step a s c { c with stand := .leaving (.ok ()) log }
  | closes {c : Course} {came : Except Failure Unit} {log : IssueLog}
      (hstand : c.stand = .closing came log) (faults : Nat → Option WriteFault) :
      Step a s c { c with
        stand := .closed came (closeLog s faults log c.world).1
        world := (closeLog s faults log c.world).2
        deeds := c.deeds ++ [.closes log (closeLog s faults log c.world).1] }
  | reraises {c : Course} {e : Failure} {log : IssueLog}
      (hstand : c.stand = .closed (.error e) log) :
      Step a s c { c with stand := .ended (.error e) }
  | aggregates {c : Course} {log : IssueLog} (hstand : c.stand = .aggregating log) :
      Step a s c { c with stand := .aggregated (summarize s.host.now log.kept) }
  | reports {c : Course} {result : AuditResult} (hstand : c.stand = .emitting result) :
      Step a s c { c with
        stand := .emitted result
        state := { c.state with report := (a.emit s result c.world).1 }
        world := (a.emit s result c.world).2
        deeds := c.deeds ++ [.reports (a.emit s result c.world).1] }

/-- What a run of a new audit can come to. -/
inductive Reachable (a : Audit) (s : AuditSetup) (w : World) : Course → Prop
  | start : Reachable a s w { world := w }
  | step {c c' : Course} (h : Reachable a s w c) (hstep : Step a s c c') : Reachable a s w c'

/-! ## What has been done -/

/-- What has been done in a run, and the state of its audit, by where the run stands. -/
inductive Sound : Stand → AuditState → List Deed → Prop
  | called : Sound .called {} []
  | finding : Sound .finding { phase := .enumerating } [.enters .enumerating]
  | opening : Sound .opening { phase := .enumerating } [.enters .enumerating]
  | opened {log : IssueLog} {stream : Option Path} (hlog : log.AtWork stream) :
      Sound (.opened log) { phase := .enumerating } [.enters .enumerating, .opens stream]
  | working {log : IssueLog} {stream : Option Path} (hlog : log.AtWork stream) :
      Sound (.working log) { phase := .scanning } (workDeeds stream)
  | leaving {came : Except Failure Unit} {log : IssueLog} {stream : Option Path}
      (hlog : log.AtWork stream) :
      Sound (.leaving came log) { phase := .scanning } (workDeeds stream ++ endDeeds came)
  | closing {came : Except Failure Unit} {log : IssueLog} {stream : Option Path}
      (hlog : log.AtWork stream) :
      Sound (.closing came log) { phase := .closing }
        (workDeeds stream ++ endDeeds came ++ [.enters .closing])
  | closed {came : Except Failure Unit} {left : IssueLog} {stream : Option Path}
      (hleft : left.AtWork stream) (faults : Nat → Option WriteFault) :
      Sound (.closed came (left.close faults).1) { phase := .closing }
        (closedDeeds stream came left (left.close faults).1)
  | aggregating {left : IssueLog} {stream : Option Path} (hleft : left.AtWork stream)
      (faults : Nat → Option WriteFault) :
      Sound (.aggregating (left.close faults).1) { phase := .aggregating }
        (closedDeeds stream (.ok ()) left (left.close faults).1 ++ [.enters .aggregating])
  | aggregated {left : IssueLog} {stream : Option Path} {result : AuditResult}
      (hleft : left.AtWork stream) (faults : Nat → Option WriteFault) :
      Sound (.aggregated result) { phase := .aggregating }
        (closedDeeds stream (.ok ()) left (left.close faults).1 ++ [.enters .aggregating])
  | emitting {left : IssueLog} {stream : Option Path} {result : AuditResult}
      (hleft : left.AtWork stream) (faults : Nat → Option WriteFault) :
      Sound (.emitting result) { phase := .emitting }
        (closedDeeds stream (.ok ()) left (left.close faults).1 ++
          [.enters .aggregating, .enters .emitting])
  | emitted {left : IssueLog} {stream : Option Path} {result : AuditResult}
      {report : Option Path} (hleft : left.AtWork stream)
      (faults : Nat → Option WriteFault) :
      Sound (.emitted result) { phase := .emitting, report }
        (closedDeeds stream (.ok ()) left (left.close faults).1 ++
          [.enters .aggregating, .enters .emitting, .reports report])
  | returned {left : IssueLog} {stream : Option Path} {result : AuditResult}
      {report : Option Path} (hleft : left.AtWork stream)
      (faults : Nat → Option WriteFault) :
      Sound (.ended (.ok result)) { phase := .done, report }
        (doneDeeds stream left (left.close faults).1 report)
  | unfound {e : Failure} :
      Sound (.ended (.error e)) { phase := .enumerating }
        [.enters .enumerating, .raises .enumeration e]
  | unopened {e : Failure} :
      Sound (.ended (.error e)) { phase := .enumerating }
        [.enters .enumerating, .raises .opening e]
  | failed {e : Failure} {left : IssueLog} {stream : Option Path}
      (hleft : left.AtWork stream) (faults : Nat → Option WriteFault) :
      Sound (.ended (.error e)) { phase := .closing }
        (closedDeeds stream (.error e) left (left.close faults).1)

variable {a : Audit} {s : AuditSetup} {w : World} {c c' : Course}

theorem openLog_atWork {category : String} {w' : World} {log : IssueLog}
    (h : openLog s category w = (.ok log, w')) : log.AtWork log.path := by
  obtain ⟨directory, possible, hstart⟩ := start_of_openLog h
  exact .start hstart

/-- No phase is refused: each that is entered comes after the one before. -/
theorem Sound.enter {stand next : Stand} {state : AuditState} {deeds : List Deed} {phase : Phase}
    (h : Sound stand state deeds) (hentry : stand.entry? = some (phase, next)) (category : String) :
    state.enter category phase = .ok { state with phase } ∧
      Sound next { state with phase } (deeds ++ [.enters phase]) := by
  cases h with
  | called =>
      cases hentry
      exact ⟨rfl, .finding⟩
  | opened hlog =>
      cases hentry
      exact ⟨rfl, .working hlog⟩
  | leaving hlog =>
      cases hentry
      exact ⟨rfl, .closing hlog⟩
  | @closed came _ _ hleft faults =>
      cases came with
      | error e => cases hentry
      | ok _ =>
          cases hentry
          exact ⟨rfl, .aggregating hleft faults⟩
  | aggregated hleft faults =>
      cases hentry
      exact ⟨rfl, .emitting hleft faults⟩
  | emitted hleft faults =>
      cases hentry
      exact ⟨rfl, .returned hleft faults⟩
  | _ => cases hentry

/-- Whatever step a run takes, its history goes with where it stands. -/
theorem Step.sound (hstep : Step a s c c') (h : Sound c.stand c.state c.deeds) :
    Sound c'.stand c'.state c'.deeds := by
  obtain ⟨⟨state, world, deeds⟩, stand⟩ := c
  cases hstep with
  | enters hentry henter =>
      obtain ⟨hentered, hsound⟩ := h.enter hentry a.category
      rw [hentered] at henter
      cases henter
      exact hsound
  | refused hentry henter =>
      rw [(h.enter hentry a.category).1] at henter
      cases henter
  | finds hstand _ =>
      cases hstand
      cases h
      exact .opening
  | findsNot hstand _ =>
      cases hstand
      cases h
      exact .unfound
  | opens hstand hopens =>
      cases hstand
      cases h
      exact .opened (openLog_atWork hopens)
  | opensNot hstand _ =>
      cases hstand
      cases h
      exact .unopened
  | records hstand hrecord =>
      cases hstand
      cases h with
      | working hlog => exact .working (hlog.record hrecord)
  | writes hstand fault =>
      cases hstand
      cases h with
      | working hlog => exact .working (hlog.write fault)
  | acts _ _ => exact h
  | fails hstand e =>
      cases hstand
      cases h with
      | working hlog => exact .leaving hlog
  | finishes hstand =>
      cases hstand
      cases h with
      | working hlog => exact .leaving hlog
  | @closes came log hstand faults =>
      cases hstand
      cases h with
      | closing hleft => cases came <;> exact .closed hleft faults
  | reraises hstand =>
      cases hstand
      cases h with
      | closed hleft faults => exact .failed hleft faults
  | aggregates hstand =>
      cases hstand
      cases h with
      | aggregating hleft faults => exact .aggregated hleft faults
  | reports hstand =>
      cases hstand
      cases h with
      | emitting hleft faults => exact .emitted hleft faults

/-- Whatever a run has come to, its history goes with where it stands. -/
theorem Reachable.sound (h : Reachable a s w c) : Sound c.stand c.state c.deeds := by
  induction h with
  | start => exact .called
  | step _ hstep ih => exact hstep.sound ih

/-- A run that writes its report has closed its log. -/
theorem Sound.closes_of_emitting {result : AuditResult} {state : AuditState} {deeds : List Deed}
    (h : Sound (.emitting result) state deeds) : ∃ left closed, .closes left closed ∈ deeds := by
  cases h with
  | @emitting left _ _ _ faults =>
      exact ⟨left, (left.close faults).1, by simp [closedDeeds]⟩

/-- A report stands behind a closing of the log. -/
def ReportsLast (deeds : List Deed) : Prop :=
  ∀ before after report, deeds = before ++ .reports report :: after →
    ∃ left closed, .closes left closed ∈ before

theorem ReportsLast.concat {deeds : List Deed} (h : ReportsLast deeds) {d : Deed}
    (hd : ∀ report, d = .reports report → ∃ left closed, .closes left closed ∈ deeds) :
    ReportsLast (deeds ++ [d]) := by
  intro before after report hsplit
  rcases List.eq_nil_or_concat after with rfl | ⟨between, last, rfl⟩
  · obtain ⟨rfl, hlast⟩ := List.append_inj' hsplit rfl
    exact hd report (List.singleton_inj.mp hlast)
  · have hsplit' : deeds ++ [d] = (before ++ .reports report :: between) ++ [last] := by
      simpa using hsplit
    exact h before between report (List.append_inj' hsplit' rfl).1

/-- Nothing is reported before the log is closed. -/
theorem Reachable.reportsLast (h : Reachable a s w c) : ReportsLast c.deeds := by
  induction h with
  | start =>
      intro before after report hsplit
      simp at hsplit
  | step h hstep ih =>
      cases hstep with
      | reports hstand =>
          refine ih.concat fun _ _ => ?_
          have hsound := h.sound
          rw [hstand] at hsound
          exact hsound.closes_of_emitting
      | enters => exact ih.concat nofun
      | refused => exact ih.concat nofun
      | findsNot => exact ih.concat nofun
      | opens => exact ih.concat nofun
      | opensNot => exact ih.concat nofun
      | fails => exact ih.concat nofun
      | closes => exact ih.concat nofun
      | _ => exact ih

/-- The phases that were entered are those up to the present one, in their order. -/
theorem Sound.entered_eq {stand : Stand} {state : AuditState} {deeds : List Deed}
    (h : Sound stand state deeds) : entered deeds = (Phase.all.drop 1).take state.phase.rank := by
  cases h with
  | @leaving came _ _ _ => cases came <;> rfl
  | @closing came _ _ _ => cases came <;> rfl
  | @closed came _ _ _ => cases came <;> rfl
  | _ => rfl

/-- What is promised of a run, whatever it has come to. -/
structure Orderly (a : Audit) (c : Course) : Prop where
  /-- The phases that are entered ascend in their order, and the last is the phase of the audit. -/
  ascending : (entered c.deeds).Pairwise fun p q => p.rank < q.rank
  phase_eq : c.state.phase = (entered c.deeds).getLast?.getD .idle
  /-- A run that raises does so in one of its parts, and the phase in which it ends tells in
  which. -/
  raised : ∀ e, c.stand = .ended (.error e) →
    ∃ part, (∀ part' e', .raises part' e' ∈ c.deeds ↔ part' = part ∧ e' = e) ∧
      (((part = .enumeration ∨ part = .opening) ∧ c.state.phase = .enumerating) ∨
        (part = .scanning ∧ c.state.phase = .closing))
  returned : ∀ result, c.stand = .ended (.ok result) →
    c.state.phase = .done ∧ ∀ part e, .raises part e ∉ c.deeds
  /-- If a log was opened, it is closed in the end, and the lines that wait are flushed. -/
  closed : ∀ came, c.stand = .ended came → ∀ stream, .opens stream ∈ c.deeds →
    ∃ left closed faults, .closes left closed ∈ c.deeds ∧ left.AtWork stream ∧
      IssueLog.Flushed faults left closed stream
  /-- A report is written when the log has been closed, and none by a run that raises. -/
  reportsLast : ReportsLast c.deeds
  unreported : ∀ e, c.stand = .ended (.error e) →
    c.state.report = none ∧ ∀ report, .reports report ∉ c.deeds
  /-- Once it has begun there is no other run, at whatever pace, and an attempt changes nothing. -/
  once : c.stand ≠ .called → ∀ s pace w,
    a.runPaced s pace c.state w = ⟨.error (.alreadyRun a.category), c.state, w⟩

theorem Sound.raised {e : Failure} {state : AuditState} {deeds : List Deed}
    (h : Sound (.ended (.error e)) state deeds) :
    ∃ part, (∀ part' e', .raises part' e' ∈ deeds ↔ part' = part ∧ e' = e) ∧
      (((part = .enumeration ∨ part = .opening) ∧ state.phase = .enumerating) ∨
        (part = .scanning ∧ state.phase = .closing)) := by
  cases h with
  | unfound => exact ⟨.enumeration, by simp, .inl ⟨.inl rfl, rfl⟩⟩
  | unopened => exact ⟨.opening, by simp, .inl ⟨.inr rfl, rfl⟩⟩
  | failed => exact ⟨.scanning, by simp [closedDeeds, workDeeds, endDeeds], .inr ⟨rfl, rfl⟩⟩

theorem Sound.unreported {e : Failure} {state : AuditState} {deeds : List Deed}
    (h : Sound (.ended (.error e)) state deeds) :
    state.report = none ∧ ∀ report, .reports report ∉ deeds := by
  cases h with
  | unfound => simp
  | unopened => simp
  | failed => simp [closedDeeds, workDeeds, endDeeds]

theorem Sound.done {result : AuditResult} {state : AuditState} {deeds : List Deed}
    (h : Sound (.ended (.ok result)) state deeds) :
    state.phase = .done ∧ ∀ part e, .raises part e ∉ deeds := by
  cases h with
  | returned => simp [doneDeeds, closedDeeds, workDeeds, endDeeds]

theorem Sound.flushed {came : Except Failure AuditResult} {state : AuditState}
    {deeds : List Deed} {stream : Option Path} (h : Sound (.ended came) state deeds)
    (hopens : .opens stream ∈ deeds) :
    ∃ left closed faults, .closes left closed ∈ deeds ∧ left.AtWork stream ∧
      IssueLog.Flushed faults left closed stream := by
  cases h with
  | @returned left _ _ _ hleft faults =>
      obtain rfl : stream = _ := by
        simpa [doneDeeds, closedDeeds, workDeeds, endDeeds] using hopens
      exact ⟨left, _, faults, by simp [doneDeeds, closedDeeds], hleft, hleft.close faults⟩
  | unfound => simp at hopens
  | unopened => simp at hopens
  | @failed _ left _ hleft faults =>
      obtain rfl : stream = _ := by simpa [closedDeeds, workDeeds, endDeeds] using hopens
      exact ⟨left, _, faults, by simp [closedDeeds], hleft, hleft.close faults⟩

/-- An audit whose run has begun is not new any more. -/
theorem Sound.not_idle {stand : Stand} {state : AuditState} {deeds : List Deed}
    (h : Sound stand state deeds) (hcalled : stand ≠ .called) : state.phase ≠ .idle := by
  cases h with
  | called => exact absurd rfl hcalled
  | _ => exact nofun

theorem runPaced_of_not_idle {state : AuditState} (h : state.phase ≠ .idle) (pace : Pace) :
    a.runPaced s pace state w = ⟨.error (.alreadyRun a.category), state, w⟩ := by
  rw [runPaced, if_pos h]

theorem Reachable.orderly (h : Reachable a s w c) : Orderly a c := by
  have hsound := h.sound
  have hentered := hsound.entered_eq
  refine ⟨?_, ?_, ?_, ?_, ?_, h.reportsLast, ?_, ?_⟩
  · have hall : (Phase.all.drop 1).Pairwise fun p q => p.rank < q.rank := by decide
    rw [hentered]
    exact hall.sublist (List.take_sublist _ _)
  · rw [hentered]
    cases c.state.phase <;> rfl
  · intro e hstand
    rw [hstand] at hsound
    exact hsound.raised
  · intro result hstand
    rw [hstand] at hsound
    exact hsound.done
  · intro came hstand stream hopens
    rw [hstand] at hsound
    exact hsound.flushed hopens
  · intro e hstand
    rw [hstand] at hsound
    exact hsound.unreported
  · intro hcalled s pace w
    exact runPaced_of_not_idle (hsound.not_idle hcalled) pace

/-! ## Running an audit -/

/-- The run that works with an open log. -/
def Course.atWork (stream : Option Path) (log : IssueLog) (world : World) : Course where
  state := { phase := .scanning }
  world
  deeds := workDeeds stream
  stand := .working log

/-- The run that is to close its log. -/
def Course.atLeaving (stream : Option Path) (came : Except Failure Unit) (log : IssueLog)
    (world : World) : Course where
  state := { phase := .scanning }
  world
  deeds := workDeeds stream ++ endDeeds came
  stand := .leaving came log

theorem reachable_atWork {files : List Path} {found opened : World} {log : IssueLog}
    (hfinds : a.enumerate w = (.ok files, found))
    (hopens : openLog s a.category found = (.ok log, opened)) :
    Reachable a s w (.atWork log.path log opened) := by
  refine .step
    (.step (.step (.step .start (.enters rfl rfl)) (.finds rfl hfinds)) (.opens rfl hopens)) ?_
  exact .enters rfl rfl

variable {stream : Option Path} {log log' : IssueLog} {world : World}

theorem Reachable.act (h : Reachable a s w (.atWork stream log world)) (world' : World) :
    Reachable a s w (.atWork stream log world') :=
  .step h (.acts rfl world')

theorem Reachable.recordAll {findings : List Finding} {notes : List Note}
    (h : Reachable a s w (.atWork stream log world))
    (hrecord : log.recordAll findings = some (log', notes)) :
    Reachable a s w (.atWork stream log' world) := by
  induction findings generalizing log notes with
  | nil =>
      cases hrecord
      exact h
  | cons f findings ih =>
      rw [IssueLog.recordAll] at hrecord
      split at hrecord
      · cases hrecord
      · next answer log₁ notes₁ hfirst =>
          obtain ⟨⟨log₂, more⟩, hrest, heq⟩ := Option.map_eq_some_iff.mp hrecord
          cases heq
          exact ih (.step h (.records rfl hfirst)) hrest

/-- An event while files are scanned records findings, or is a step of the writer. -/
theorem Reachable.next {x x' : Scanning} {event : ScanningEvent}
    (h : Reachable a s w (.atWork stream x.log world)) (hnext : x.next event = some x') :
    Reachable a s w (.atWork stream x'.log world) := by
  cases event with
  | scan event =>
      rw [Scanning.next] at hnext
      split at hnext
      · cases hnext
      · obtain ⟨⟨log, notes⟩, hrecord, rfl⟩ := Option.map_eq_some_iff.mp hnext
        exact h.recordAll hrecord
  | write fault =>
      cases hnext
      exact .step h (.writes rfl fault)

theorem Reachable.run {x x' : Scanning} {events : List ScanningEvent}
    (h : Reachable a s w (.atWork stream x.log world)) (hrun : x.run events = some x') :
    Reachable a s w (.atWork stream x'.log world) := by
  induction events generalizing x with
  | nil =>
      cases hrun
      exact h
  | cons event events ih =>
      obtain ⟨x₁, hnext, hrest⟩ := Option.bind_eq_some_iff.mp hrun
      exact ih (h.next hnext) hrest

/-- Work may end at any time, by itself or in a failure. -/
theorem Reachable.leave (h : Reachable a s w (.atWork stream log world))
    (came : Except Failure Unit) : Reachable a s w (.atLeaving stream came log world) := by
  cases came with
  | error e => exact .step h (.fails rfl e)
  | ok _ => exact .step h (.finishes rfl)

/-- However scanning and recording end, it is an end of the work. -/
theorem Reachable.scanAndRecord {pace : Pace} {files : List Path} {came : Except Failure Unit}
    {world' : World} (h : Reachable a s w (.atWork stream log world))
    (hwork : a.scanAndRecord s pace files log world = (came, log', world')) :
    Reachable a s w (.atLeaving stream came log' world') := by
  rw [Audit.scanAndRecord] at hwork
  split at hwork
  · cases hwork
    exact h.leave _
  dsimp only at hwork
  split at hwork
  · cases hwork
    exact (h.act _).leave _
  next x hfinish =>
  have hrun := Reachable.run (x := .start _ _ _ log) h (Option.filter_eq_some_iff.mp hfinish).1
  split at hwork
  · cases hwork
    exact (hrun.act _).leave _
  · rw [Audit.recordAll] at hwork
    split at hwork
    · cases hwork
      exact (hrun.act _).leave _
    · next hrecord =>
        cases hwork
        exact ((hrun.recordAll hrecord).act _).leave _

/-- An audit that is run, at any pace, comes to its end in steps, with the deeds of its course; its
log is closed with the faults of the pace. -/
theorem exists_reachable_follow (a : Audit) (s : AuditSetup) (w : World) (pace : Pace) :
    ∃ c, Reachable a s w c ∧ c.stand = .ended (a.follow s pace { world := w }).1 ∧
      c.toAuditCourse = (a.follow s pace { world := w }).2 ∧
      ∀ left closed, .closes left closed ∈ c.deeds → closed = (left.close pace.faults).1 := by
  have hfinding : Reachable a s w ⟨⟨{ phase := .enumerating }, w, [.enters .enumerating]⟩,
      .finding⟩ := .step .start (.enters rfl rfl)
  rw [follow_eq]
  rcases hfinds : a.enumerate w with ⟨e | files, found⟩
  · exact ⟨_, .step hfinding (.findsNot rfl hfinds), rfl, rfl, by simp⟩
  dsimp only
  rcases hopens : openLog s a.category found with ⟨e | log, opened⟩
  · exact ⟨_, .step (.step hfinding (.finds rfl hfinds)) (.opensNot rfl hopens), rfl, rfl, by simp⟩
  dsimp only
  rcases hwork : a.scanAndRecord s pace files log opened with ⟨came, left, after⟩
  have hleaving := (reachable_atWork hfinds hopens).scanAndRecord hwork
  have hclosed := Reachable.step (.step hleaving (.enters rfl rfl)) (.closes rfl pace.faults)
  have hfaults : (closeLog s pace.faults left after).1 = (left.close pace.faults).1 := rfl
  cases came with
  | error e =>
      refine ⟨_, .step hclosed (.reraises rfl), rfl, rfl, ?_⟩
      simp [Course.atLeaving, workDeeds, endDeeds, hfaults]
  | ok _ =>
      have haggregated := Reachable.step (.step hclosed (.enters rfl rfl)) (.aggregates rfl)
      have hemitting := Reachable.step haggregated (.enters rfl rfl)
      refine ⟨_, .step (.step hemitting (.reports rfl)) (.enters rfl rfl), rfl, rfl, ?_⟩
      simp [Course.atLeaving, workDeeds, endDeeds, hfaults]

/-- A run of an audit, in which what is done while the log is open may raise at any time, keeps to
the order of the phases, closes and flushes the log that it has opened, reports last, and is the
only one of its audit. Running an audit at any pace is such a run: its deeds are those of the
course that the audit follows, and its log is closed with the faults of the pace. -/
theorem run_orderly (a : Audit) (s : AuditSetup) (w : World) :
    (∀ c, Reachable a s w c → Orderly a c) ∧
      ∀ pace, ∃ c, Reachable a s w c ∧ c.stand = .ended (a.runPaced s pace {} w).result ∧
        c.state = (a.runPaced s pace {} w).state ∧ c.world = (a.runPaced s pace {} w).world ∧
        c.deeds = (a.follow s pace { world := w }).2.deeds ∧
        ∀ left closed, .closes left closed ∈ c.deeds →
          closed = (left.close pace.faults).1 := by
  refine ⟨fun _ h => h.orderly, fun pace => ?_⟩
  obtain ⟨c, hreachable, hstand, hcourse, hfaults⟩ := exists_reachable_follow a s w pace
  have hrun : a.runPaced s pace {} w =
      ⟨(a.follow s pace { world := w }).1, (a.follow s pace { world := w }).2.state,
        (a.follow s pace { world := w }).2.world⟩ := rfl
  rw [hrun]
  exact ⟨c, hreachable, hstand, congrArg AuditCourse.state hcourse,
    congrArg AuditCourse.world hcourse, congrArg AuditCourse.deeds hcourse, hfaults⟩

/-- When something raises after a finding was recorded, the log is closed with its line written, and
the audit cannot be run again. -/
theorem run_orderly_interrupted :
    ∃ c, Reachable threeFileAudit (threeFileSetup 2 true) emptyWorld c ∧
      c.stand = .ended (.error (.outside "interrupted")) ∧ c.state = { phase := .closing } ∧
      (∃ left closed faults, .closes left closed ∈ c.deeds ∧
        left.AtWork (some (IssueLog.streamPath (.absolute ["reports"]) "accessibility")) ∧
        IssueLog.Flushed faults left closed
          (some (IssueLog.streamPath (.absolute ["reports"]) "accessibility"))) ∧
      ∀ s pace w, threeFileAudit.runPaced s pace c.state w =
        ⟨.error (.alreadyRun "accessibility"), { phase := .closing }, w⟩ := by
  have hwork : Reachable threeFileAudit (threeFileSetup 2 true) emptyWorld (.atWork _ _ _) :=
    reachable_atWork rfl rfl
  have hrecorded :=
    Reachable.step hwork (.records (f := plainFinding "missing_alt" "a.html") rfl rfl)
  have hleaving := Reachable.step hrecorded (.fails rfl (.outside "interrupted"))
  have hclosed := Reachable.step (.step hleaving (.enters rfl rfl)) (.closes rfl fun _ => none)
  have hended := Reachable.step hclosed (.reraises rfl)
  have horderly := (run_orderly _ _ _).1 _ hended
  refine ⟨_, hended, rfl, rfl, horderly.closed _ rfl _ ?_, horderly.once nofun⟩
  simp only [Course.atWork, workDeeds, List.mem_append, List.mem_cons]
  exact .inl (.inl (.inl (.inr (.inl rfl))))

end Audit

end FrontendAudit
