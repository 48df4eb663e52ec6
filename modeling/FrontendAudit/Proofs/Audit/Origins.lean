import FrontendAudit.Proofs.Audit.Beside
import FrontendAudit.Proofs.Audit.Steps
import FrontendAudit.Proofs.Summary

/-!
# Where the issues of an audit come from

An audit whose steps keep to an invariant of the world, and give only findings with a property
(`Audit.Gives`), has only issues with the property, and leaves a world that keeps to the invariant
(`Gives.issues`, `Gives.run`). The invariant may be that the outside still has no answers but those
of a world before: each step that asks takes an answer away and adds none (`World.AnswersAmong`).
-/

namespace FrontendAudit

open World (Unasked)

/-! ## The answers that are left -/

section

variable {α : Type} {otherwise : α}

/-- The answers that a script can give. -/
def answersOf (otherwise : α) (script : List α) : List α :=
  if script.isEmpty then [otherwise] else script

theorem nextAnswer_mem_answersOf (script : List α) :
    (nextAnswer otherwise script).1 ∈ answersOf otherwise script := by
  match script with
  | [] => exact List.mem_singleton_self otherwise
  | [a] => exact List.mem_singleton_self a
  | a :: b :: script => exact List.mem_cons_self

theorem answersOf_nextAnswer_subset (script : List α) :
    answersOf otherwise (nextAnswer otherwise script).2 ⊆ answersOf otherwise script := by
  match script with
  | [] => exact List.Subset.refl _
  | [a] => exact List.Subset.refl _
  | a :: b :: script => exact List.subset_cons_self a (b :: script)

end

namespace World

/-- What may come of running a tool on a file. -/
def toolAnswers (w : World) (tool path : String) : List ToolRun :=
  answersOf w.toolOtherwise (scriptOf (tool, path) w.toolRuns)

/-- What the review service may answer. -/
def serviceAnswers (w : World) : List Http.Answer := answersOf .unreachable w.service

/-- The outside has no answers but those that it had in a world before. -/
structure AnswersAmong (before w : World) : Prop where
  tools : ∀ tool path, w.toolAnswers tool path ⊆ before.toolAnswers tool path
  service : w.serviceAnswers ⊆ before.serviceAnswers

namespace AnswersAmong

variable {before w v : World}

theorem refl (w : World) : AnswersAmong w w :=
  ⟨fun _ _ => List.Subset.refl _, List.Subset.refl _⟩

theorem unasked (h : AnswersAmong before w) (hasked : Unasked w v) : AnswersAmong before v := by
  rw [hasked]
  exact ⟨h.tools, h.service⟩

theorem note (w : World) (notes : List Note) (h : AnswersAmong before w) :
    AnswersAmong before (w.note notes) :=
  h.unasked rfl

theorem fetch (h : AnswersAmong before w) (url : String) :
    AnswersAmong before (World.fetch url w).2 :=
  ⟨h.tools, h.service⟩

theorem post (h : AnswersAmong before w) (request : Post) :
    AnswersAmong before (World.post request w).2 ∧
    (World.post request w).1 ∈ before.serviceAnswers :=
  ⟨⟨h.tools, List.Subset.trans (answersOf_nextAnswer_subset _) h.service⟩,
    h.service (nextAnswer_mem_answersOf _)⟩

theorem runTool (h : AnswersAmong before w) (tool path : String) :
    AnswersAmong before (World.runTool tool path w).2 ∧
      (World.runTool tool path w).1 ∈ before.toolAnswers tool path := by
  refine ⟨⟨fun other file => ?_, h.service⟩, h.tools tool path (nextAnswer_mem_answersOf _)⟩
  refine List.Subset.trans ?_ (h.tools other file)
  by_cases hkey : (other, file) = (tool, path)
  · obtain ⟨rfl, rfl⟩ := Prod.mk.inj hkey
    have hscript : scriptOf (other, file) (World.runTool other file w).2.toolRuns =
        (nextAnswer w.toolOtherwise (scriptOf (other, file) w.toolRuns)).2 :=
      scriptOf_setScript_next w.toolRuns _ _
    rw [toolAnswers, hscript]
    exact answersOf_nextAnswer_subset _
  · have hscript : scriptOf (other, file) (World.runTool tool path w).2.toolRuns =
        scriptOf (other, file) w.toolRuns := scriptOf_setScript_of_ne w.toolRuns hkey _
    rw [toolAnswers, hscript]
    exact List.Subset.refl _

end AnswersAmong

end World

/-! ## What an audit gives -/

namespace Audit

/-- An audit whose steps keep to an invariant, and give only findings with a property. -/
structure Gives (I : World → Prop) (P : Finding → Prop) (a : Audit) : Prop where
  enumerate : Run.Gives I (fun _ => True) a.enumerate
  scan : ∀ file, Run.Gives I (fun scan => ∀ f ∈ scan.findings, P f) (a.scan file)
  finalize : ∀ tally, Run.Gives I (fun found => ∀ f ∈ found, P f) (a.finalize tally)

variable {I : World → Prop} {P : Finding → Prop} {a : Audit} {s : AuditSetup}
  {pace : Pace} {w : World}

theorem Gives.scanAll (ha : a.Gives I P) (files : List Path) (hw : I w) :
    I (a.scanAll files w).2 ∧ ∀ scanned ∈ (a.scanAll files w).1, ∀ f ∈ scanned.findings, P f := by
  induction files generalizing w with
  | nil =>
      refine ⟨hw, ?_⟩
      intro scanned h
      cases h
  | cons file files ih =>
      obtain ⟨hafter, hgiven⟩ := ha.scan file w hw
      unfold Audit.scanAll
      rcases hstep : a.scan file w with ⟨outcome, w'⟩
      rw [hstep] at hafter hgiven
      obtain ⟨hrest, hfound⟩ := ih hafter
      refine ⟨hrest, List.forall_mem_cons.mpr ⟨?_, hfound⟩⟩
      cases outcome with
      | ok scan => exact hgiven scan rfl
      | error e =>
          intro f hf
          cases hf

section

variable (hunasked : ∀ v v', I v → Unasked v v' → I v')

include hunasked

/-- The issues of a run have the property that the findings of its steps have. -/
theorem Gives.issues (ha : a.Gives I P) (hw : I w) {result : AuditResult}
    (hrun : (a.run s {} w).result = .ok result) : ∀ f ∈ result.issues, P f := by
  obtain ⟨hsize, ⟨p⟩⟩ := exists_passage_of_run hrun
  have hfound : I p.found := by
    have h := (ha.enumerate w hw).1
    rwa [p.enumerates] at h
  have hopened : I p.opened := by
    have h := hunasked _ _ hfound (unasked_openLog s a.category p.found)
    rwa [p.opens] at h
  obtain ⟨hafter, hscanned⟩ := ha.scanAll p.files hopened
  rw [p.scansAll] at hafter hscanned
  obtain ⟨notes, hissues⟩ := p.issues hsize
  obtain ⟨-, hfinal⟩ :=
    ha.finalize (.ofFiles {} (p.scanned.length ⌈/⌉ s.config.batchSize) p.scanned)
    (p.after.note notes) (hunasked _ _ hafter rfl)
  replace hrun : (a.run s {} w).issues = .ok result.issues := by
    rw [AuditOutcome.issues, hrun]
    rfl
  rw [Audit.run, hissues] at hrun
  cases hend : (a.finalize (.ofFiles {} (p.scanned.length ⌈/⌉ s.config.batchSize) p.scanned)
      (p.after.note notes)).1 with
  | error e =>
      rw [hend] at hrun
      cases hrun
  | ok found =>
      rw [hend] at hrun
      intro f hf
      rw [← Except.ok.inj hrun] at hf
      -- an issue was found in some file, or at the end
      obtain ⟨before, after, hkept, -⟩ := mem_dedupe_iff.mp hf
      have hmem := List.mem_of_mem_take (hkept ▸ List.mem_append_right before List.mem_cons_self)
      rcases List.mem_append.mp hmem with hfile | hlast
      · obtain ⟨file, hfile, hin⟩ := List.mem_flatMap.mp hfile
        exact hscanned file hfile f hin
      · exact hfinal found hend f hlast

theorem Gives.scanAndRecord (ha : a.Gives I P) (files : List Path) (log : IssueLog) (hw : I w) :
    I (a.scanAndRecord s pace files log w).2.2 := by
  have hnotes : ∀ v notes, I v → I (v.note notes) := fun v notes hv => hunasked v _ hv rfl
  unfold Audit.scanAndRecord
  split
  · exact hw
  · have hscanned := (ha.scanAll files hw).1
    rcases hscans : a.scanAll files w with ⟨scanned, w'⟩
    rw [hscans] at hscanned
    dsimp only
    split
    · exact hscanned
    · next x hfinish =>
        have hafter := (ha.finalize x.schedule.tally _
          (hnotes _ (x.notes ++ x.schedule.closingNotes) hscanned)).1
        rcases hend :
          a.finalize x.schedule.tally (w'.note (x.notes ++ x.schedule.closingNotes)) with
          ⟨found, w₁⟩
        rw [hend] at hafter
        cases found with
        | error e => exact hafter
        | ok found =>
            dsimp only [recordAll]
            split
            · exact hafter
            · exact hnotes _ _ hafter

/-- A run leaves a world that keeps to the invariant. -/
theorem Gives.run (ha : a.Gives I P) (hw : I w) : I (a.run s {} w).world := by
  rw [Audit.run, runPaced_eq]
  rw [if_neg (fun hphase => hphase rfl)]
  have hfound := (ha.enumerate w hw).1
  rcases henumerates : a.enumerate w with ⟨files, w₁⟩
  rw [henumerates] at hfound
  cases files with
  | error e => exact hfound
  | ok files =>
      have hopened := hunasked _ _ hfound (unasked_openLog s a.category w₁)
      dsimp only
      rcases hopens : openLog s a.category w₁ with ⟨log, w₂⟩
      rw [hopens] at hopened
      cases log with
      | error e => exact hopened
      | ok log =>
          have hrecorded : I (a.scanAndRecord s (.together s.config.batchSize) files log w₂).2.2 :=
            ha.scanAndRecord hunasked files log hopened
          dsimp only
          rcases hending : a.scanAndRecord s (.together s.config.batchSize) files log w₂ with
            ⟨ending, closing, w₃⟩
          rw [hending] at hrecorded
          have hclosed := hunasked _ _ hrecorded
            (unasked_closeLog s (Pace.together s.config.batchSize).faults closing w₃)
          cases ending with
          | error e => exact hclosed
          | ok _ => exact hunasked _ _ hclosed (unasked_emit a s _ _)

end

end Audit

end FrontendAudit
