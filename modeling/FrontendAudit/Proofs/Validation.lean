import FrontendAudit.Json.Misfit
import FrontendAudit.Validation.Scalar

/-!
# When a check accepts

A combined check accepts exactly when each of its parts does, and then the value is put together
from the values of the parts.
-/

namespace FrontendAudit.Checked

variable {α β : Type}

theorem map_eq_ok {f : α → β} {c : Checked α} {b : β} :
    f <$> c = .ok b ↔ ∃ a, c = .ok a ∧ f a = b := by
  cases c with
  | ok a => simp
  | bad issues =>
      constructor
      · intro h
        cases h
      · rintro ⟨_, h, _⟩
        cases h

theorem seq_eq_ok {f : Checked (α → β)} {c : Checked α} {b : β} :
    f <*> c = .ok b ↔ ∃ g a, f = .ok g ∧ c = .ok a ∧ g a = b := by
  constructor
  · intro h
    cases f with
    | bad issues => cases c <;> cases h
    | ok g =>
        cases c with
        | bad issues => cases h
        | ok a => exact ⟨g, a, rfl, rfl, ok.inj h⟩
  · rintro ⟨g, a, rfl, rfl, rfl⟩
    rfl

theorem below_eq_ok {step : Step} {c : Checked α} {a : α} : below step c = .ok a ↔ c = .ok a := by
  cases c <;> simp [below]

theorem andThen_eq_ok {c : Checked α} {check : α → Checked β} {b : β} :
    c.andThen check = .ok b ↔ ∃ a, c = .ok a ∧ check a = .ok b := by
  cases c <;> simp [andThen]

theorem toExcept_eq_ok {c : Checked α} {a : α} : c.toExcept = .ok a ↔ c = .ok a := by
  cases c <;> simp [toExcept]

theorem text_eq_ok {v : Json} {s : String} : text v = .ok s ↔ v = .str s := by
  cases v <;> simp [text, reject]

theorem optional_text_eq_ok {v : Json} {value : Option String} :
    optional text v = .ok value ↔ v = Json.ofOption .str value := by
  cases v <;> cases value <;> simp [optional, text, reject, Checked.map, Json.ofOption]

/-- Whatever is accepted at all is accepted where it may be absent. -/
theorem optional_eq_ok_of_ne_null {check : Json → Checked α} {v : Json} (h : v ≠ .null)
    {value : Option α} : optional check v = .ok value ↔ ∃ a, check v = .ok a ∧ value = some a := by
  have hcheck : optional check v = (check v).map some := by
    cases v with
    | null => exact absurd rfl h
    | _ => rfl
  rw [hcheck]
  cases check v with
  | ok a => simp [Checked.map, eq_comm]
  | bad issues => simp [Checked.map]

/-- A field that may be absent is read from the first of its names that is there, or takes its
default. -/
theorem field_eq_ok_iff {names : List String} {usual a : α} {check : Json → Checked α}
    {ms : List (String × Json)} : field names (some usual) check ms = .ok a ↔
      (firstNamed? names ms = none ∧ a = usual) ∨
        ∃ name v, firstNamed? names ms = some (name, v) ∧ check v = .ok a := by
  unfold field
  cases firstNamed? names ms with
  | none => simp [eq_comm]
  | some found =>
      obtain ⟨name, v⟩ := found
      simp only [below_eq_ok, reduceCtorEq, false_and, false_or, Option.some.injEq, Prod.mk.injEq]
      constructor
      · exact fun h => ⟨name, v, ⟨rfl, rfl⟩, h⟩
      · rintro ⟨_, _, ⟨rfl, rfl⟩, h⟩
        exact h

/-- The value of a field that may be absent is its default or comes from a member. -/
theorem field_eq_ok {names : List String} {usual a : α} {check : Json → Checked α}
    {ms : List (String × Json)} (h : field names (some usual) check ms = .ok a) :
    a = usual ∨ ∃ name v, Json.lookup? name ms = some v ∧ check v = .ok a := by
  rcases field_eq_ok_iff.mp h with ⟨-, husual⟩ | ⟨name, v, hnamed, hcheck⟩
  · exact .inl husual
  · obtain ⟨name', -, hlookup⟩ := List.exists_of_findSome?_eq_some hnamed
    obtain ⟨v', hv', heq⟩ := Option.map_eq_some_iff.mp hlookup
    obtain ⟨rfl, rfl⟩ := Prod.mk.inj heq
    exact .inr ⟨name', v', hv', hcheck⟩

theorem positive_eq_ok {v : Json} {n : Nat} :
    positive v = .ok n ↔ integer v = .ok (n : Int) ∧ 1 ≤ n := by
  unfold positive
  cases integer v with
  | bad issues => simp
  | ok m =>
      dsimp only
      split
      · rw [ok.injEq, ok.injEq]
        omega
      · simp only [reject, reduceCtorEq, ok.injEq, false_iff]
        omega

/-- A list is accepted as it is if each of its elements is. -/
theorem inTurn_eq_ok {check : α → Checked α} {as : List α} (h : ∀ a ∈ as, check a = .ok a) :
    inTurn check as = .ok as := by
  induction as with
  | nil => rfl
  | cons a as ih =>
      rw [List.forall_mem_cons] at h
      rw [inTurn, h.1, ih h.2]
      rfl

end FrontendAudit.Checked
