/-!
# Ranges of code points

Character properties are tables of inclusive ranges.
-/

namespace FrontendAudit.Text

/-- The code points from the first number to the second, both included. -/
abbrev CodeRange := Nat × Nat

/-- Whether the range holds the character. -/
def CodeRange.holds (r : CodeRange) (c : Char) : Bool :=
  r.1 ≤ c.toNat && c.toNat ≤ r.2

theorem CodeRange.holds_iff {r : CodeRange} {c : Char} :
    r.holds c = true ↔ r.1 ≤ c.toNat ∧ c.toNat ≤ r.2 := by
  simp [CodeRange.holds]

end FrontendAudit.Text
