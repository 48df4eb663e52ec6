import FrontendAudit.Number.Binary64
import Mathlib.Algebra.Order.Field.Power
import Mathlib.Data.Rat.Cast.Order
import Mathlib.Tactic.FieldSimp
import Mathlib.Tactic.Linarith
import Mathlib.Tactic.NormNum
import Mathlib.Tactic.Positivity
import Mathlib.Tactic.Ring

/-!
# Multiplying by powers of two

A finite number of double precision stands for a rational number (`Binary64.value?`). Its product
with a power of two loses nothing: it is a number of double precision again, or past all of them
(`scaleBy_finite`).
-/

namespace FrontendAudit.Number

/-! ## Quotients -/

/-- A quotient that is whole is rounded to itself. -/
theorem roundDiv_mul (a : ℕ) {d : ℕ} (hd : 0 < d) : roundDiv (a * d) d = a := by
  simp [roundDiv, Nat.mul_mod_left, Nat.mul_div_cancel a hd, hd]

namespace Binary64

theorem scaled_pos (num : ℕ) {den : ℕ} (hden : 0 < den) (e : ℤ) : 0 < (scaled num den e).2 := by
  unfold scaled
  dsimp only
  split
  · exact hden
  · exact Nat.mul_pos hden (Nat.pow_pos (by decide))

theorem pow_natAbs_of_neg {e : ℤ} (he : e < 0) : (2 : ℚ) ^ e.natAbs = 2 ^ (-e) := by
  rw [← zpow_natCast, Int.ofNat_natAbs_of_nonpos he.le]

theorem pow_natAbs_of_nonneg {e : ℤ} (he : 0 ≤ e) : (2 : ℚ) ^ e.natAbs = 2 ^ e := by
  rw [← zpow_natCast, Int.natAbs_of_nonneg he]

theorem scaled_div (num den : ℕ) (e : ℤ) :
    ((scaled num den e).1 : ℚ) / (scaled num den e).2 = num / den * 2 ^ (-e) := by
  unfold scaled
  dsimp only
  split
  · next he =>
      show ((num * 2 ^ e.natAbs : ℕ) : ℚ) / den = _
      push_cast
      rw [pow_natAbs_of_neg he]
      ring
  · next he =>
      show (num : ℚ) / ((den * 2 ^ e.natAbs : ℕ) : ℚ) = _
      push_cast
      rw [pow_natAbs_of_nonneg (not_lt.mp he), zpow_neg]
      ring

theorem quotientOf_pos (m : ℕ) (e : ℤ) : 0 < (quotientOf m e).2 := by
  unfold quotientOf
  dsimp only
  split
  · exact Nat.pow_pos (by decide)
  · exact Nat.one_pos

theorem quotientOf_div (m : ℕ) (e : ℤ) :
    ((quotientOf m e).1 : ℚ) / (quotientOf m e).2 = m * 2 ^ e := by
  unfold quotientOf
  dsimp only
  split
  · next he =>
      show (m : ℚ) / ((2 ^ e.natAbs : ℕ) : ℚ) = _
      push_cast
      rw [pow_natAbs_of_neg he, zpow_neg, div_inv_eq_mul]
  · next he =>
      show ((m * 2 ^ e.natAbs : ℕ) : ℚ) / ((1 : ℕ) : ℚ) = _
      push_cast
      rw [pow_natAbs_of_nonneg (not_lt.mp he), div_one]

/-! ## The exponent of a product -/

theorem log2_mul_two_pow {m : ℕ} (hm : m ≠ 0) (k : ℕ) : (m * 2 ^ k).log2 = m.log2 + k := by
  rw [Nat.log2_eq_iff (Nat.mul_ne_zero hm (by positivity)), pow_add, Nat.add_right_comm, pow_add]
  exact ⟨Nat.mul_le_mul_right _ (Nat.log2_self_le hm),
    Nat.mul_lt_mul_of_pos_right Nat.lt_log2_self (by positivity)⟩

theorem log2_quotientOf {m : ℕ} (hm : m ≠ 0) (e : ℤ) :
    ((quotientOf m e).1.log2 : ℤ) - ((quotientOf m e).2.log2 : ℤ) = m.log2 + e := by
  unfold quotientOf
  dsimp only
  split
  · next he =>
      show (m.log2 : ℤ) - ((2 ^ e.natAbs : ℕ).log2 : ℤ) = _
      rw [Nat.log2_two_pow]
      omega
  · next he =>
      show ((m * 2 ^ e.natAbs : ℕ).log2 : ℤ) - ((1 : ℕ).log2 : ℤ) = _
      rw [log2_mul_two_pow hm, show (1 : ℕ).log2 = 0 from by decide]
      omega

/-- At the exponent that puts its first bit in the 53rd place, a product of a mantissa is whole. -/
theorem scaled_quotientOf (m : ℕ) {e e' : ℤ} (he : e' ≤ e) :
    let n := scaled (quotientOf m e).1 (quotientOf m e).2 e'
    n.1 = m * 2 ^ (e - e').toNat * n.2 := by
  dsimp only
  have hpos := scaled_pos (quotientOf m e).1 (quotientOf_pos m e) e'
  have hdiv := scaled_div (quotientOf m e).1 (quotientOf m e).2 e'
  have hpow : (2 : ℚ) ^ e * 2 ^ (-e') = 2 ^ (e - e').toNat := by
    rw [← zpow_add₀ two_ne_zero, ← zpow_natCast, Int.toNat_of_nonneg (by omega)]
    rfl
  rw [quotientOf_div, mul_assoc, hpow, div_eq_iff (by positivity)] at hdiv
  exact_mod_cast hdiv

theorem exponentFor_quotientOf {m : ℕ} (hm : m ≠ 0) (hbits : m < 2 ^ 53) (e : ℤ) :
    exponentFor (quotientOf m e).1 (quotientOf m e).2 = max (m.log2 + e - 52) leastExponent := by
  have hlog : m.log2 ≤ 52 := by
    have := (Nat.log2_lt hm).mpr hbits
    omega
  unfold exponentFor
  dsimp only
  rw [log2_quotientOf hm]
  have hwhole := scaled_quotientOf m (show (m.log2 : ℤ) + e - 52 ≤ e by omega)
  have hpos := scaled_pos (quotientOf m e).1 (quotientOf_pos m e) (m.log2 + e - 52)
  dsimp only at hwhole
  rw [hwhole, Nat.mul_div_cancel _ hpos, if_neg]
  have hshift : (e - (m.log2 + e - 52)).toNat = 52 - m.log2 := by omega
  rw [hshift, not_lt]
  calc 2 ^ 52 = 2 ^ m.log2 * 2 ^ (52 - m.log2) := by rw [← pow_add, Nat.add_sub_cancel' hlog]
    _ ≤ m * 2 ^ (52 - m.log2) := Nat.mul_le_mul_right _ (Nat.log2_self_le hm)

/-! ## Products -/

theorem quotientOf_ne_zero {m : ℕ} (hm : m ≠ 0) (e : ℤ) : (quotientOf m e).1 ≠ 0 := by
  unfold quotientOf
  dsimp only
  split
  · exact hm
  · exact Nat.mul_ne_zero hm (Nat.pow_pos (by decide)).ne'

/-- Comparing numbers is comparing them in units of the least one. -/
theorem mul_pow_lt_pow_iff (a : ℕ) {e : ℤ} {b c : ℕ} (he : -(b : ℤ) ≤ e) :
    a * Nat.pow 2 (e + b).toNat < Nat.pow 2 (c + b) ↔ (a : ℚ) * 2 ^ e < 2 ^ c := by
  have hunits : (2 : ℚ) ^ (e + b).toNat = 2 ^ e * 2 ^ b := by
    rw [← zpow_natCast, Int.toNat_of_nonneg (by omega), zpow_add₀ two_ne_zero, zpow_natCast]
  rw [Nat.pow_eq, Nat.pow_eq, ← Nat.cast_lt (α := ℚ)]
  simp only [Nat.cast_mul, Nat.cast_pow, Nat.cast_ofNat]
  rw [hunits, ← mul_assoc, pow_add]
  exact mul_lt_mul_iff_of_pos_right (by positivity)

/-- Rounding keeps a product of a mantissa, unless it is past the largest finite number. -/
theorem ofRatio_quotientOf (negative : Bool) {m : ℕ} {e : ℤ} (hm : m ≠ 0) (hbits : m < 2 ^ 53)
    (he : leastExponent ≤ e) :
    ∃ (m' : ℕ) (e' : ℤ), (m' : ℚ) * 2 ^ e' = m * 2 ^ e ∧
      ofRatio negative (quotientOf m e).1 (quotientOf m e).2 =
        if (m : ℚ) * 2 ^ e < 2 ^ 1024 then .finite negative m' e' else .infinite negative := by
  have hlog : m.log2 < 53 := (Nat.log2_lt hm).mpr hbits
  obtain ⟨e', he'⟩ : ∃ e', e' = max ((m.log2 : ℤ) + e - 52) leastExponent := ⟨_, rfl⟩
  obtain ⟨k, hk⟩ : ∃ k : ℕ, e = e' + k := ⟨(e - e').toNat, by omega⟩
  have hrounding := exponentFor_quotientOf hm hbits e
  rw [← he'] at hrounding
  have hwhole := scaled_quotientOf m (show e' ≤ e by omega)
  have hpos := scaled_pos (quotientOf m e).1 (quotientOf_pos m e) e'
  dsimp only at hwhole
  rw [show (e - e').toNat = k by omega] at hwhole
  -- the mantissa is shifted into the 53 bits and no further
  have hshifted : m * 2 ^ k < 2 ^ 53 := by
    calc m * 2 ^ k < 2 ^ (m.log2 + 1) * 2 ^ k :=
      Nat.mul_lt_mul_of_pos_right Nat.lt_log2_self (by positivity)
      _ = 2 ^ (m.log2 + 1 + k) := (pow_add _ _ _).symm
      _ ≤ 2 ^ 53 := Nat.pow_le_pow_right (by decide) (by omega)
  have hnormal : normalized (m * 2 ^ k) e' = (m * 2 ^ k, e') := if_neg hshifted.ne
  have hvalue : (m : ℚ) * 2 ^ k * 2 ^ e' = m * 2 ^ e := by
    rw [hk, zpow_add₀ two_ne_zero, zpow_natCast]
    ring
  have hlargest : m * 2 ^ k * Nat.pow 2 (e' + 1074).toNat < Nat.pow 2 (1024 + 1074) ↔
      (m : ℚ) * 2 ^ e < 2 ^ 1024 := by
    rw [← hvalue]
    exact_mod_cast mul_pow_lt_pow_iff (m * 2 ^ k) (b := 1074) (c := 1024) (he' ▸ le_max_right _ _)
  refine ⟨m * 2 ^ k, e', by push_cast; exact hvalue, ?_⟩
  unfold ofRatio
  rw [if_neg (quotientOf_ne_zero hm e), hrounding]
  dsimp only
  rw [hwhole, roundDiv_mul _ hpos, hnormal]
  exact if_congr hlargest rfl rfl

/-- The number as a rational one, if it is finite. -/
def value? : Binary64 → Option ℚ
  | .finite negative m e => some ((if negative then -1 else 1) * (m * 2 ^ e))
  | _ => none

/-- A number that double precision has: if it is finite, its mantissa has 53 bits at most. -/
def IsDouble (x : Binary64) : Prop :=
  ∀ negative m e, x = .finite negative m e → m < 2 ^ 53 ∧ leastExponent ≤ e

/-- The product of a finite number with a power of two is exact, or past the largest finite
number. -/
theorem value?_scaleBy {x : Binary64} (hx : x.IsDouble) {q : ℚ} (hq : x.value? = some q) (k : ℕ) :
    (x.scaleBy k).value? = some (q * 2 ^ k) ∨
    2 ^ 1024 ≤ |q * 2 ^ k| ∧ x.scaleBy k = .infinite (q < 0) := by
  cases x with
  | infinite negative => cases hq
  | nan => cases hq
  | finite negative m e =>
      obtain rfl := Option.some.inj hq
      obtain ⟨hbits, he⟩ := hx negative m e rfl
      by_cases hm : m = 0
      · subst hm
        left
        have hzero : (quotientOf 0 (e + k)).1 = 0 := by
          unfold quotientOf
          dsimp only
          split <;> simp
        simp [scaleBy, ofRatio, hzero, value?]
      · obtain ⟨m', e', hvalue, hproduct⟩ :=
          ofRatio_quotientOf negative (e := e + k) hm hbits (by omega)
        have hscaled : (m : ℚ) * 2 ^ (e + k) = m * 2 ^ e * 2 ^ k := by
          rw [zpow_add₀ two_ne_zero, zpow_natCast, mul_assoc]
        have hpos : (0 : ℚ) < m * 2 ^ e := mul_pos (by positivity) (by positivity)
        rw [scaleBy]
        dsimp only
        rw [hproduct]
        by_cases hfinite : (m : ℚ) * 2 ^ (e + k) < 2 ^ 1024
        · left
          rw [if_pos hfinite, value?, hvalue, hscaled, ← mul_assoc]
        · right
          rw [if_neg hfinite]
          rw [hscaled, not_lt] at hfinite
          cases negative
          · simpa [abs_of_pos hpos, hpos.le] using hfinite
          · simpa [abs_of_pos hpos, hpos] using hfinite

end Binary64

end FrontendAudit.Number
