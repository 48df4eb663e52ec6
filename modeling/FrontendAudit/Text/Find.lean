/-!
# Occurrences of a text
-/

namespace FrontendAudit.Text

/-- Whether the first text occurs within the second. -/
def occurs (needle : List Char) : List Char → Bool
  | [] => needle.isEmpty
  | c :: s => needle.isPrefixOf (c :: s) || occurs needle s

theorem occurs_iff {needle s : List Char} :
    occurs needle s = true ↔ ∃ before after, s = before ++ needle ++ after := by
  induction s with
  | nil =>
    simp only [occurs, List.isEmpty_iff, List.nil_eq, List.append_eq_nil_iff]
    constructor
    · rintro rfl; exact ⟨[], [], by simp⟩
    · rintro ⟨_, _, ⟨_, h⟩, _⟩; exact h
  | cons c s ih =>
    simp only [occurs, Bool.or_eq_true, List.isPrefixOf_iff_prefix, ih]
    constructor
    · rintro (⟨after, h⟩ | ⟨before, after, rfl⟩)
      · exact ⟨[], after, by simpa using h.symm⟩
      · exact ⟨c :: before, after, rfl⟩
    · rintro ⟨before, after, h⟩
      cases before with
      | nil => exact Or.inl ⟨after, by simpa using h.symm⟩
      | cons b before =>
        simp only [List.cons_append, List.cons.injEq] at h
        exact Or.inr ⟨before, after, h.2⟩

end FrontendAudit.Text
