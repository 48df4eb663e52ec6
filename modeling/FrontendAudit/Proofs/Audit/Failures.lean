import FrontendAudit.Audit.Category
import FrontendAudit.Proofs.Audit.Course
import FrontendAudit.Proofs.Run

/-!
# How audits fail

What an audit does itself is to read: the patterns of its files, the manifest, pages and reviews.
These steps fail in the ways of `Failure.OfReading` only, so that an audit of any category fails in
one of them, over its log, or because no file may be scanned at a time (`FailsIn.runPaced`).
-/

namespace FrontendAudit

/-- The failures of steps that read patterns, manifests, pages and reviews. -/
inductive Failure.OfReading : Failure → Prop
  | badGlob : OfReading .badGlob
  | undecodable : OfReading .undecodable
  | misfit (m : Misfit) : OfReading (.misfit m)
  | badAddress (fault : Url.Fault) : OfReading (.badAddress fault)
  | outside (reason : String) : OfReading (.outside reason)
  | notConnected : OfReading .notConnected

/-- The failures of the log of a category, and of running its audit again. -/
inductive Failure.OfLog (category : String) : Failure → Prop
  | noStream (path : Path) : OfLog category (.noStream path)
  | logOpened : OfLog category (.logOpened category)
  | logNotOpen : OfLog category (.logNotOpen category)
  | alreadyRun : OfLog category (.alreadyRun category)

/-- An audit whose own steps only fail in some ways. What a scan fails with is kept with its
file. -/
structure Audit.FailsIn (P : Failure → Prop) (a : Audit) : Prop where
  enumerate : Run.FailsIn P a.enumerate
  finalize : ∀ tally, Run.FailsIn P (a.finalize tally)

open Failure (OfReading)

/-! ## Pages -/

namespace Page

theorem follow_failsIn (fuel : Nat) (url : Url) : Run.FailsIn OfReading (follow fuel url) := by
  induction fuel generalizing url with
  | zero =>
      unfold follow
      refine (Run.FailsIn.act _).bind fun answer => ?_
      split
      · exact .pure none
      · split
        · exact .pure none
        · exact .pure _
  | succ fuel ih =>
      unfold follow
      refine (Run.FailsIn.act _).bind fun answer => ?_
      split
      · exact .pure none
      · split
        · dsimp only
          split
          · exact .pure none
          · exact (Run.FailsIn.ofExcept .badAddress _).bind fun next => ih next
        · exact .pure _

theorem fetchedFindings_failsIn {policy : RetryPolicy} (hpolicy : policy.TellsPauses)
    (address : String) :
    Run.FailsIn OfReading (fetchedFindings policy address) := by
  have hfetch : Run.FailsIn OfReading (fetch address) := by
    refine (Run.FailsIn.ofExcept .badAddress _).bind fun url =>
      (follow_failsIn _ _).bind fun text => ?_
    cases text with
    | none => exact .throw (.outside _)
    | some text => exact .pure text
  refine (hfetch.retry hpolicy _).bind fun text => ?_
  cases text with
  | none => exact (Run.FailsIn.note _).bind fun _ => .pure []
  | some text => exact .ofExcept .misfit _

theorem checkAll_failsIn {policy : RetryPolicy} (hpolicy : policy.TellsPauses)
    (addresses : List String) :
    Run.FailsIn OfReading (checkAll policy addresses) := by
  induction addresses with
  | nil => exact .pure []
  | cons address addresses ih =>
      exact (fetchedFindings_failsIn hpolicy address).bind fun found => ih.bind fun more =>
        .pure (found ++ more)

end Page

namespace Audit

/-! ## The categories -/

theorem files_failsIn (s : AuditSetup) (category : Category) :
    Run.FailsIn OfReading (s.files category) :=
  Run.FailsIn.get.bind fun _ => (Run.FailsIn.ofExcept (fun _ => .badGlob) _).bind fun _ => .pure _

theorem accessibility_failsIn (s : AuditSetup) (urls : List String) :
    (accessibility s urls).FailsIn OfReading where
  enumerate := files_failsIn s .accessibility
  finalize _ := (Run.FailsIn.ofExcept .misfit _).bind fun _ =>
    (Page.checkAll_failsIn RetryPolicy.tellsPauses_default urls).bind fun _ => .pure _

theorem lint_failsIn (s : AuditSetup) (setup : LintSetup) : (lint s setup).FailsIn OfReading where
  enumerate := files_failsIn s setup.linter.category
  finalize _ := .pure []

/-- The manifest is either no text, or some of its data has the wrong shape. -/
theorem manifestFindings_failsIn (s : AuditSetup) : Run.FailsIn OfReading (manifestFindings s) := by
  refine Run.FailsIn.get.bind fun w => ?_
  split
  · exact .pure []
  · split
    · exact .throw .undecodable
    · split
      · exact (Run.FailsIn.note _).bind fun _ => .pure []
      · exact (Run.FailsIn.ofExcept .misfit _).bind fun _ => .ofExcept .misfit _
      · exact (Run.FailsIn.note _).bind fun _ => .pure []

theorem performance_failsIn (s : AuditSetup) : (performance s).FailsIn OfReading where
  enumerate := files_failsIn s .performance
  finalize _ := manifestFindings_failsIn s

theorem review_failsIn (service : Service) (repository : String) :
    Run.FailsIn OfReading (service.review repository) := by
  unfold Service.review Service.call
  split
  · exact .throw .notConnected
  · refine (Run.FailsIn.ofExcept .badAddress _).bind fun u =>
      (Run.FailsIn.act _).bind fun answer => ?_
    cases answer with
    | unreachable => exact .throw (.outside _)
    | reply status _ body =>
        dsimp only
        split
        · exact .throw (.outside _)
        · split
          · exact .pure _
          · exact .throw (.outside _)

theorem security_failsIn (s : AuditSetup) (repository : Option String) (service : Service) :
    (security s repository service).FailsIn OfReading where
  enumerate := .pure []
  finalize _ := by
    show Run.FailsIn _ (reviewFindings s repository service)
    unfold reviewFindings
    split
    · exact (Run.FailsIn.note _).bind fun _ => .pure []
    · exact ((review_failsIn service _).retry RetryPolicy.tellsPauses_default _).bind fun _ =>
        .ofExcept .misfit _

/-! ## Runs -/

section

variable {a : Audit} {s : AuditSetup} {pace : Pace} {P : Failure → Prop} {e : Failure} {w : World}

theorem recordAll_error {category : String} {findings : List Finding} {log : IssueLog}
    (h : (recordAll category findings log w).1 = .error e) : e = .logNotOpen category := by
  unfold recordAll at h
  split at h
  · exact (Except.error.inj h).symm
  · cases h

theorem openLog_error {category : String} {w' : World} (h : openLog s category w = (.error e, w')) :
    e.OfLog category := by
  unfold openLog at h
  dsimp only at h
  split at h
  · cases h
  · cases h
    exact .logOpened
  · cases h
    exact .noStream _

theorem FailsIn.scanAndRecord (ha : a.FailsIn P) {files : List Path} {log : IssueLog}
    (h : (a.scanAndRecord s pace files log w).1 = .error e) :
    P e ∨ e = .logNotOpen a.category ∨
    s.config.batchSize < 1 ∧ e = .badBatchSize s.config.batchSize := by
  unfold Audit.scanAndRecord at h
  split at h
  · next hsize => exact .inr (.inr ⟨hsize, (Except.error.inj h).symm⟩)
  · dsimp only at h
    split at h
    · exact .inr (.inl (Except.error.inj h).symm)
    · split at h
      · next hfinal =>
          obtain rfl := Except.error.inj h
          exact .inl (ha.finalize _ _ _ (by rw [hfinal]))
      · exact .inr (.inl (recordAll_error h))

/-- An audit fails in one of its own steps, over its log, or because no file may be scanned at a
time. -/
theorem FailsIn.runPaced (ha : a.FailsIn P) {state : AuditState}
    (h : (a.runPaced s pace state w).result = .error e) :
    P e ∨ e.OfLog a.category ∨ s.config.batchSize < 1 ∧ e = .badBatchSize s.config.batchSize := by
  rw [runPaced_eq] at h
  split at h
  · obtain rfl := Except.error.inj h
    exact .inr (.inl .alreadyRun)
  · split at h
    · next hfiles =>
        obtain rfl := Except.error.inj h
        exact .inl (ha.enumerate _ _ (by rw [hfiles]))
    · split at h
      · next hopen =>
          obtain rfl := Except.error.inj h
          exact .inr (.inl (openLog_error hopen))
      · dsimp only at h
        split at h
        · next hscanned =>
            obtain rfl := Except.error.inj h
            rcases ha.scanAndRecord hscanned with hown | rfl | hsize
            · exact .inl hown
            · exact .inr (.inl .logNotOpen)
            · exact .inr (.inr hsize)
        · cases h

end

end Audit

end FrontendAudit
