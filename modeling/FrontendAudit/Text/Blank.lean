/-!
# Blank characters

What counts as white space at the ends of a text, and in a pattern. The set is wider than ASCII:
it has the separators U+001C to U+001F, the next-line character, and the spaces of the character
database, but neither the zero-width space nor the byte order mark. `strip` removes blanks from
both ends and nothing from between.
-/

namespace FrontendAudit.Text

/-- The blank characters. -/
def isBlank (c : Char) : Bool :=
  let n := c.toNat
  (9 ≤ n && n ≤ 13) || (28 ≤ n && n ≤ 32) || n = 0x85 || n = 0xa0 || n = 0x1680 ||
    (0x2000 ≤ n && n ≤ 0x200a) || n = 0x2028 || n = 0x2029 || n = 0x202f || n = 0x205f || n = 0x3000

/-- Removes what the predicate holds of from the end. -/
def trimEnd (p : Char → Bool) (s : List Char) : List Char :=
  s.foldr (fun c kept => if kept.isEmpty && p c then [] else c :: kept) []

/-- Removes blanks from both ends. -/
def strip (s : List Char) : List Char :=
  trimEnd isBlank (s.dropWhile isBlank)

/-- Whether nothing but blanks is there. -/
def isBlankText (s : List Char) : Bool :=
  s.all isBlank

/-! ## What stripping keeps -/

theorem trimEnd_cons (p : Char → Bool) (c : Char) (s : List Char) :
    trimEnd p (c :: s) =
      if (trimEnd p s).isEmpty && p c then [] else c :: trimEnd p s := rfl

theorem trimEnd_eq_nil_iff {p : Char → Bool} {s : List Char} :
    trimEnd p s = [] ↔ ∀ c ∈ s, p c = true := by
  induction s with
  | nil => simp [trimEnd]
  | cons c s ih =>
    rw [trimEnd_cons]
    by_cases h : (trimEnd p s).isEmpty && p c
    · simp only [h, if_true, List.mem_cons, forall_eq_or_imp, true_iff]
      simp only [Bool.and_eq_true, List.isEmpty_iff] at h
      exact ⟨h.2, ih.1 h.1⟩
    · simp only [h, List.mem_cons, forall_eq_or_imp]
      simp only [Bool.and_eq_true, List.isEmpty_iff, not_and] at h
      constructor
      · intro hc; simp at hc
      · intro hc; exact absurd hc.1 (by simpa using h (ih.2 hc.2))

section

variable {p : Char → Bool} {s : List Char}

theorem trimEnd_sublist (p : Char → Bool) (s : List Char) : (trimEnd p s).Sublist s := by
  induction s with
  | nil => exact List.Sublist.refl []
  | cons d s ih =>
      rw [trimEnd_cons]
      split
      · exact List.nil_sublist _
      · exact ih.cons_cons d

theorem trimEnd_eq_self (h : ∀ c, s.getLast? = some c → p c = false) : trimEnd p s = s := by
  induction s with
  | nil => rfl
  | cons c s ih =>
      cases s with
      | nil =>
          have hc : p c = false := h c rfl
          simp [trimEnd, hc]
      | cons d s =>
          rw [trimEnd_cons, ih fun e he => h e (by rwa [List.getLast?_cons_cons])]
          rfl

theorem getLast?_trimEnd {c : Char} (h : (trimEnd p s).getLast? = some c) : p c = false := by
  induction s with
  | nil => cases h
  | cons d s ih =>
      rw [trimEnd_cons] at h
      split at h
      · cases h
      · next hkept =>
          cases hrest : trimEnd p s with
          | nil =>
              rw [hrest] at h hkept
              obtain rfl : d = c := by simpa using h
              simpa using hkept
          | cons e rest =>
              rw [hrest, List.getLast?_cons_cons, ← hrest] at h
              exact ih h

/-- What was removed from the end has the property. -/
theorem exists_trimEnd_append (p : Char → Bool) (s : List Char) :
    ∃ after, s = trimEnd p s ++ after ∧ ∀ c ∈ after, p c = true := by
  induction s with
  | nil => exact ⟨[], rfl, by simp⟩
  | cons c s ih =>
      obtain ⟨after, hs, hafter⟩ := ih
      rw [trimEnd_cons]
      split
      · next hkept =>
          simp only [Bool.and_eq_true, List.isEmpty_iff] at hkept
          rw [hkept.1, List.nil_append] at hs
          exact ⟨c :: s, rfl, List.forall_mem_cons.2 ⟨hkept.2, hs ▸ hafter⟩⟩
      · exact ⟨after, congrArg (c :: ·) hs, hafter⟩

/-- What has the property is removed from the end. -/
theorem trimEnd_append_of_all {after : List Char} (h : ∀ c ∈ after, p c = true) :
    trimEnd p (s ++ after) = trimEnd p s := by
  induction s with
  | nil => exact trimEnd_eq_nil_iff.2 h
  | cons c s ih => rw [List.cons_append, trimEnd_cons, trimEnd_cons, ih]

end

theorem mem_of_mem_strip {c : Char} {s : List Char} (h : c ∈ strip s) : c ∈ s :=
  (List.dropWhile_sublist _).subset ((trimEnd_sublist _ _).subset h)

/-- A text strips to nothing exactly when it is all blanks. -/
theorem strip_eq_nil_iff {s : List Char} : strip s = [] ↔ isBlankText s = true := by
  rw [strip, trimEnd_eq_nil_iff, isBlankText, List.all_eq_true]
  constructor
  · intro h c hc
    by_cases hm : c ∈ s.dropWhile isBlank
    · exact h c hm
    · have := List.takeWhile_append_dropWhile (p := isBlank) (l := s)
      have hc' : c ∈ s.takeWhile isBlank := by
        rw [← this, List.mem_append] at hc
        exact hc.resolve_right hm
      exact List.all_eq_true.1 List.all_takeWhile c hc'
  · intro h c hc
    exact h c ((List.dropWhile_sublist _).subset hc)

end FrontendAudit.Text
