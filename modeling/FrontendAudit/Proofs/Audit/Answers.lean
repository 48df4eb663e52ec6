import FrontendAudit.Proofs.Audit.Steps

/-!
# The answers to a category

Linters are asked by name, pages are fetched for one category only, and for one only the review
service is called. So each category has answers of its own (`World.SameAnswers`): the questions of
others take none of them away. Two worlds in which a category has the same answers keep to that, and
leave the answers to the others alone, while it asks its questions (`World.Beside`).
-/

namespace FrontendAudit

open Disk (Volume Tree)
open Run (Agrees KeptByNotes)

/-! ## Scripts of answers -/

section

variable {α : Type} {otherwise : α} {script : List α}

/-- The answer that a script gives after some others. -/
def answerAt (otherwise : α) (script : List α) (i : Nat) : α :=
  ((script[i]?).or script.getLast?).getD otherwise

theorem answerAt_mem (script : List α) (i : Nat) :
    answerAt otherwise script i ∈ otherwise :: script := by
  rw [answerAt]
  cases hat : script[i]? with
  | some answer => exact List.mem_cons_of_mem _ (List.mem_of_getElem? hat)
  | none =>
      cases hlast : script.getLast? with
      | some answer => exact List.mem_cons_of_mem _ (List.mem_of_getLast? hlast)
      | none => exact List.mem_cons_self

theorem answerAt_zero : answerAt otherwise script 0 = (nextAnswer otherwise script).1 := by
  match script with
  | [] => rfl
  | [a] => rfl
  | a :: b :: script => rfl

theorem answerAt_succ (i : Nat) :
    answerAt otherwise script (i + 1) = answerAt otherwise (nextAnswer otherwise script).2 i := by
  match script with
  | [] => rfl
  | [a] => cases i <;> rfl
  | a :: b :: script =>
      rw [answerAt, answerAt, List.getElem?_cons_succ, List.getLast?_cons_cons]
      rfl

end

namespace World

section

variable {α κ : Type} [DecidableEq κ] (scripts : List (κ × List α))

theorem scriptOf_cons (key : κ) (s : κ × List α) :
    scriptOf key (s :: scripts) = if s.1 = key then s.2 else scriptOf key scripts := by
  by_cases h : s.1 = key <;> simp [scriptOf, h]

theorem setScript_cons (key : κ) (script : List α) (s : κ × List α) :
    setScript key script (s :: scripts) =
      (if s.1 = key then (key, script) else s) :: setScript key script scripts := rfl

theorem scriptOf_setScript_of_ne {key other : κ} (h : other ≠ key) (script : List α) :
    scriptOf other (setScript key script scripts) = scriptOf other scripts := by
  induction scripts with
  | nil => rfl
  | cons s scripts ih =>
      rw [setScript_cons, scriptOf_cons, scriptOf_cons, ih]
      by_cases hs : s.1 = key
      · rw [if_pos hs, if_neg (Ne.symm h), if_neg (hs.trans_ne (Ne.symm h))]
      · rw [if_neg hs]

/-- A script that was replaced is the new one; where there was none the new one has to be empty. -/
theorem scriptOf_setScript_self {key : κ} {script : List α}
    (h : scriptOf key scripts = [] → script = []) :
    scriptOf key (setScript key script scripts) = script := by
  induction scripts with
  | nil => exact (h rfl).symm
  | cons s scripts ih =>
      rw [setScript_cons, scriptOf_cons]
      by_cases hs : s.1 = key
      · rw [if_pos hs, if_pos rfl]
      · rw [scriptOf_cons, if_neg hs] at h
        rw [if_neg hs, if_neg hs, ih h]

/-- What is left of a script when an answer was given. -/
theorem scriptOf_setScript_next (key : κ) (otherwise : α) :
    scriptOf key (setScript key (nextAnswer otherwise (scriptOf key scripts)).2 scripts) =
      (nextAnswer otherwise (scriptOf key scripts)).2 := by
  refine scriptOf_setScript_self scripts fun hnone => ?_
  rw [hnone]
  rfl

end

/-! ## The answers to a category -/

/-- The outside answers the questions of a category in the same way in two worlds. -/
structure SameAnswers (category : Category) (w w' : World) : Prop where
  otherwise : w.toolOtherwise = w'.toolOtherwise
  toolRuns : ∀ path, scriptOf (category.name, path) w.toolRuns =
    scriptOf (category.name, path) w'.toolRuns
  pages : category = .accessibility → w.pages = w'.pages
  service : category = .security → w.service = w'.service

namespace SameAnswers

variable {category : Category} {u w w' : World}

theorem refl (category : Category) (w : World) : SameAnswers category w w :=
  ⟨rfl, fun _ => rfl, fun _ => rfl, fun _ => rfl⟩

theorem trans (h : SameAnswers category u w) (h' : SameAnswers category w w') :
    SameAnswers category u w' where
  otherwise := h.otherwise.trans h'.otherwise
  toolRuns path := (h.toolRuns path).trans (h'.toolRuns path)
  pages hpages := (h.pages hpages).trans (h'.pages hpages)
  service hservice := (h.service hservice).trans (h'.service hservice)

theorem symm (h : SameAnswers category w w') : SameAnswers category w' w where
  otherwise := h.otherwise.symm
  toolRuns path := (h.toolRuns path).symm
  pages hpages := (h.pages hpages).symm
  service hservice := (h.service hservice).symm

/-- What is written or noted has no part in what the outside answers. -/
theorem aside (h : SameAnswers category w w') (v v' : Volume) (notes notes' : List Note) :
    SameAnswers category { w with volume := v, notes := notes }
      { w' with volume := v', notes := notes' } :=
  ⟨h.otherwise, h.toolRuns, h.pages, h.service⟩

/-! ## Questions -/

theorem fetch (h : SameAnswers .accessibility w w') (url : String) :
    (World.fetch url w).1 = (World.fetch url w').1 ∧
      SameAnswers .accessibility (World.fetch url w).2 (World.fetch url w').2 := by
  obtain ⟨hanswer, hpages⟩ := Run.fetch_pages url (h.pages rfl)
  refine ⟨hanswer, h.otherwise, h.toolRuns, fun _ => hpages, ?_⟩
  intro hservice
  cases hservice

theorem runTool (h : SameAnswers category w w') (path : String) :
    (World.runTool category.name path w).1 = (World.runTool category.name path w').1 ∧
      SameAnswers category (World.runTool category.name path w).2
        (World.runTool category.name path w').2 := by
  constructor
  · simp only [World.runTool, h.otherwise, h.toolRuns]
  · refine ⟨h.otherwise, fun other => ?_, h.pages, h.service⟩
    by_cases hother : other = path
    · subst hother
      have hleft : ∀ v : World, scriptOf (category.name, other)
          (World.runTool category.name other v).2.toolRuns =
          (nextAnswer v.toolOtherwise (scriptOf (category.name, other) v.toolRuns)).2 :=
        fun v => scriptOf_setScript_next v.toolRuns _ _
      rw [hleft, hleft, h.otherwise, h.toolRuns]
    · have hkey : (category.name, other) ≠ (category.name, path) :=
        fun heq => hother (congrArg Prod.snd heq)
      simp only [World.runTool, World.note, scriptOf_setScript_of_ne _ hkey, h.toolRuns]

theorem post (h : SameAnswers .security w w') (request : Post) :
    (World.post request w).1 = (World.post request w').1 ∧
      SameAnswers .security (World.post request w).2 (World.post request w').2 := by
  refine ⟨?_, h.otherwise, h.toolRuns, ?_, fun _ => ?_⟩
  · simp only [World.post, h.service rfl]
  · intro hpages
    cases hpages
  · simp only [World.post, World.note, h.service rfl]

/-! ## Questions of other categories -/

theorem fetch_other (h : SameAnswers category u w) (hcategory : category ≠ .accessibility)
    (url : String) : SameAnswers category u (World.fetch url w).2 :=
  ⟨h.otherwise, h.toolRuns, fun hpages => absurd hpages hcategory, h.service⟩

theorem runTool_other (h : SameAnswers category u w) {other : Category}
    (hcategory : category ≠ other) (path : String) :
    SameAnswers category u (World.runTool other.name path w).2 := by
  refine ⟨h.otherwise, fun file => ?_, h.pages, h.service⟩
  have hkey : (category.name, file) ≠ (other.name, path) :=
    fun heq => hcategory (Category.name_injective (congrArg Prod.fst heq))
  simp only [World.runTool, World.note, scriptOf_setScript_of_ne _ hkey, h.toolRuns]

theorem post_other (h : SameAnswers category u w) (hcategory : category ≠ .security)
    (request : Post) :
    SameAnswers category u (World.post request w).2 :=
  ⟨h.otherwise, h.toolRuns, h.pages, fun hservice => absurd hservice hcategory⟩

end SameAnswers

/-! ## Two worlds side by side -/

/-- What was done to a world asked nothing of the outside. -/
def Unasked (w v : World) : Prop := v = { w with volume := v.volume, notes := v.notes }

/-- Two worlds with the same answers to a category, whose volumes are alike in some sense; every
other category still has the answers that it had in the worlds before. -/
structure Beside (V : Volume → Volume → Prop) (before before' : World) (category : Category)
    (w w' : World) : Prop where
  volumes : V w.volume w'.volume
  answers : SameAnswers category w w'
  others : ∀ other, other ≠ category → SameAnswers other before w
  others' : ∀ other, other ≠ category → SameAnswers other before' w'

namespace Beside

variable {V : Volume → Volume → Prop} {before before' : World} {category : Category}

/-- Worlds are beside themselves before anything is asked. -/
theorem start {w w' : World} (hvolumes : V w.volume w'.volume) (h : SameAnswers category w w') :
    Beside V w w' category w w' :=
  ⟨hvolumes, h, fun other _ => .refl other w, fun other _ => .refl other w'⟩

/-- Every category has the same answers afterwards if it had so before. -/
theorem sameAnswers {w w' : World} (h : Beside V before before' category w w')
    (hbefore : ∀ other, SameAnswers other before before') (other : Category) :
    SameAnswers other w w' := by
  by_cases hother : other = category
  · rw [hother]
    exact h.answers
  · exact (h.others other hother).symm.trans ((hbefore other).trans (h.others' other hother))

theorem of_unasked {V' : Volume → Volume → Prop} {w w' v v' : World}
    (h : Beside V before before' category w w') (hv : Unasked w v) (hv' : Unasked w' v')
    (hvolumes : V' v.volume v'.volume) : Beside V' before before' category v v' := by
  rw [hv, hv']
  exact ⟨hvolumes, h.answers.aside _ _ _ _, fun other hother =>
    (h.others other hother).aside _ _ _ _, fun other hother =>
      (h.others' other hother).aside _ _ _ _⟩

theorem keptByNotes : KeptByNotes (Beside V before before' category) :=
  fun _ _ _ _ h => h.of_unasked rfl rfl h.volumes

theorem fetch (url : String) :
    Agrees (Beside V before before' .accessibility) (Run.act (World.fetch url)) := by
  intro w w' h
  obtain ⟨hanswer, hafter⟩ := h.answers.fetch url
  exact ⟨congrArg Except.ok hanswer, h.volumes, hafter,
    fun other hother => (h.others other hother).fetch_other hother url,
    fun other hother => (h.others' other hother).fetch_other hother url⟩

theorem runTool {linter : Linter} (hlinter : linter.category = category) (path : String) :
    Agrees (Beside V before before' category) (Run.act (World.runTool linter.name path)) := by
  have hname : linter.name = category.name := by
    rw [← hlinter]
    cases linter <;> rfl
  rw [hname]
  intro w w' h
  obtain ⟨hanswer, hafter⟩ := h.answers.runTool path
  exact ⟨congrArg Except.ok hanswer, h.volumes, hafter,
    fun other hother => (h.others other hother).runTool_other hother path,
    fun other hother => (h.others' other hother).runTool_other hother path⟩

theorem post (request : Post) :
    Agrees (Beside V before before' .security) (Run.act (World.post request)) := by
  intro w w' h
  obtain ⟨hanswer, hafter⟩ := h.answers.post request
  exact ⟨congrArg Except.ok hanswer, h.volumes, hafter,
    fun other hother => (h.others other hother).post_other hother request,
    fun other hother => (h.others' other hother).post_other hother request⟩

end Beside

end World

end FrontendAudit
