import FrontendAudit.Page.Fetch
import FrontendAudit.Proofs.Run
import FrontendAudit.Proofs.Source.File

/-!
# What is found on pages depends on the pages

What is found on a page is about its address, so that it is accepted if there is one
(`acceptAll_findings_eq_ok_iff`). Checking addresses asks the outside for pages and notes what
happens. So it finds the same in worlds that are alike, if these fetch the same (`checkAll_agrees`);
in particular neither the files of the project nor the notes of the run so far have a part in what
is found (`checkAll_dependsOnPages`).
-/

namespace FrontendAudit.Page

open Run (Agrees DependsOnPages KeptByNotes)

/-! ## What is found on a page -/

/-- What is found on a page is findings of its checks about its address. -/
theorem exists_finding_of_mem {url : String} {content : List Char} {f : Finding}
    (h : f ∈ findings url content) :
    ∃ check message recommendation code, f = finding url check message recommendation code := by
  simp only [findings, List.mem_append, List.mem_filterMap] at h
  rcases h with ((h | h) | ⟨image, -, h⟩) | ⟨⟨control, inLabel⟩, -, h⟩
  · unfold languageFindings at h
    split at h
    · split at h
      · cases h
      · exact ⟨_, _, _, _, List.mem_singleton.mp h⟩
    · exact ⟨_, _, _, _, List.mem_singleton.mp h⟩
  · unfold titleFindings at h
    split at h
    · split at h
      · exact ⟨_, _, _, _, List.mem_singleton.mp h⟩
      · cases h
    · exact ⟨_, _, _, _, List.mem_singleton.mp h⟩
  · unfold imageFinding? at h
    split at h
    · cases h
    · exact ⟨_, _, _, _, (Option.some.inj h).symm⟩
  · dsimp only [controlFinding?] at h
    split at h
    · cases h
    · exact ⟨_, _, _, _, (Option.some.inj h).symm⟩

/-- Findings about a page are accepted if the page has an address, and without one as long as there
are none. -/
theorem acceptAll_findings_eq_ok_iff {url : String} {content : List Char} {found : List Finding} :
    Finding.acceptAll (findings url content) = .ok found ↔
      (url ≠ "" ∨ findings url content = []) ∧
      found = (findings url content).map Finding.bounded := by
  refine Finding.acceptAll_eq_ok_iff_of_location fun f hf => ?_
  obtain ⟨check, message, recommendation, code, rfl⟩ := exists_finding_of_mem hf
  have hlocation :
      (finding url check message recommendation code).location? = nonempty? (some url) := rfl
  rw [hlocation, nonempty?]
  by_cases hurl : url = "" <;> simp [hurl]

/-! ## What fetching depends on -/

section

variable {R : World → World → Prop}

theorem follow_agrees (hfetch : ∀ url, Agrees R (Run.act (World.fetch url))) (fuel : Nat)
    (url : Url) : Agrees R (follow fuel url) := by
  induction fuel generalizing url with
  | zero =>
      unfold follow
      refine (hfetch _).bind fun answer => ?_
      split
      · exact .pure none
      · split
        · exact .pure none
        · exact .pure _
  | succ fuel ih =>
      unfold follow
      refine (hfetch _).bind fun answer => ?_
      split
      · exact .pure none
      · split
        · -- sent on to another address, with one less to go
          dsimp only
          split
          · exact .pure none
          · exact (Agrees.ofExcept _ _).bind fun next => ih next
        · exact .pure _

theorem fetch_agrees (hfetch : ∀ url, Agrees R (Run.act (World.fetch url))) (address : String) :
    Agrees R (fetch address) := by
  refine (Agrees.ofExcept _ _).bind fun url => ?_
  refine (follow_agrees hfetch redirectLimit _).bind fun text => ?_
  cases text with
  | none => exact .throw _
  | some text => exact .pure text

theorem fetchedFindings_agrees (hnotes : KeptByNotes R) (policy : RetryPolicy) {address : String}
    (hfetch : Agrees R (fetch address)) : Agrees R (fetchedFindings policy address) := by
  refine (hfetch.retry hnotes policy _).bind fun text => ?_
  cases text with
  | none => exact (Agrees.note hnotes _).bind fun _ => .pure []
  | some text => exact .ofExcept _ _

/-- What is found on the pages of some addresses is the same in worlds that are alike, if these
fetch the same. -/
theorem checkAll_agrees (hnotes : KeptByNotes R) (policy : RetryPolicy) {addresses : List String}
    (hfetch : ∀ address ∈ addresses, Agrees R (fetch address)) :
    Agrees R (checkAll policy addresses) := by
  induction addresses with
  | nil => exact .pure []
  | cons address addresses ih =>
      obtain ⟨hfirst, hrest⟩ := List.forall_mem_cons.mp hfetch
      refine (fetchedFindings_agrees hnotes policy hfirst).bind fun found => ?_
      exact (ih hrest).bind fun more => .pure (found ++ more)

end

/-- What is found on the pages of some addresses depends on nothing else. -/
theorem checkAll_dependsOnPages (policy : RetryPolicy) (addresses : List String) :
    DependsOnPages (checkAll policy addresses) := by
  refine checkAll_agrees (R := fun w w' => w.pages = w'.pages) (fun _ _ _ _ h => h) policy
    fun address _ => ?_
  refine fetch_agrees (fun url w w' h => ?_) address
  obtain ⟨hanswer, hpages⟩ := Run.fetch_pages url h
  exact ⟨congrArg Except.ok hanswer, hpages⟩

end FrontendAudit.Page
