import FrontendAudit.Text.Integer

/-!
# How the integer of a setting is written

A setting is an integer when it has digits of any script, in groups that single underscores
separate, perhaps a sign before them, and nothing but spacing around them (`IsInteger`). The reader
of settings reads these texts and no others (`settingInt?_eq_some_iff`).
-/

namespace FrontendAudit.Text

/-- Digits with single underscores between them, and their values. -/
inductive Grouped (digit? : Char → Option Nat) : List Char → List Nat → Prop
  | last {c : Char} {d : Nat} (hdigit : digit? c = some d) : Grouped digit? [c] [d]
  | digit {c : Char} {s : List Char} {d : Nat} {ds : List Nat} (hdigit : digit? c = some d)
      (rest : Grouped digit? s ds) : Grouped digit? (c :: s) (d :: ds)
  | underscore {c : Char} {s : List Char} {d : Nat} {ds : List Nat} (hdigit : digit? c = some d)
      (rest : Grouped digit? s ds) : Grouped digit? (c :: '_' :: s) (d :: ds)

/-- Digits of any script, perhaps behind a sign, and the integer that they stand for. -/
inductive SignedDigits : List Char → Int → Prop
  | unsigned {s : List Char} {ds : List Nat} (digits : Grouped digitValue? s ds) :
      SignedDigits s (ofDigits ds : Nat)
  | plus {s : List Char} {ds : List Nat} (digits : Grouped digitValue? s ds) :
      SignedDigits ('+' :: s) (ofDigits ds : Nat)
  | minus {s : List Char} {ds : List Nat} (digits : Grouped digitValue? s ds) :
      SignedDigits ('-' :: s) (-(ofDigits ds : Nat))

/-- A text that is an integer as settings are written, with spacing around it. -/
def IsInteger (s : List Char) (n : Int) : Prop :=
  ∃ before written after, s = before ++ written ++ after ∧ (∀ c ∈ before, isSpacing c = true) ∧
    (∀ c ∈ after, isSpacing c = true) ∧ SignedDigits written n

/-! ## Groups of digits -/

section

variable {digit? : Char → Option Nat} {s : List Char} {ds : List Nat}

theorem Grouped.exists_head (h : Grouped digit? s ds) :
    ∃ c d rest, s.head? = some c ∧ digit? c = some d ∧ ds = d :: rest := by
  cases h with
  | last hdigit => exact ⟨_, _, _, rfl, hdigit, rfl⟩
  | digit hdigit _ => exact ⟨_, _, _, rfl, hdigit, rfl⟩
  | underscore hdigit _ => exact ⟨_, _, _, rfl, hdigit, rfl⟩

theorem Grouped.exists_getLast (h : Grouped digit? s ds) :
    ∃ c d, s.getLast? = some c ∧ digit? c = some d := by
  induction h with
  | last hdigit => exact ⟨_, _, rfl, hdigit⟩
  | digit _ rest ih =>
      obtain ⟨c, d, hc, hd⟩ := ih
      exact ⟨c, d, by rw [List.getLast?_cons, hc]; rfl, hd⟩
  | underscore _ rest ih =>
      obtain ⟨c, d, hc, hd⟩ := ih
      exact ⟨c, d, by rw [List.getLast?_cons, List.getLast?_cons, hc]; rfl, hd⟩

/-- An underscore is no digit, so that it only stands between digits. -/
theorem Grouped.not_underscore (hunderscore : digit? '_' = none) :
    ¬ Grouped digit? ('_' :: s) ds := by
  intro h
  obtain ⟨c, d, -, hc, hd, -⟩ := h.exists_head
  obtain rfl : '_' = c := Option.some.inj hc
  rw [hunderscore] at hd
  cases hd

/-- What is read behind a digit makes groups of digits with it. -/
theorem groupedDigitsAfter_eq_some_iff (hunderscore : digit? '_' = none) {c : Char} {d : Nat}
    (hdigit : digit? c = some d) :
    groupedDigitsAfter digit? s = some ds ↔ Grouped digit? (c :: s) (d :: ds) := by
  fun_induction groupedDigitsAfter digit? s generalizing c d ds with
  | case1 =>
      constructor
      · intro h
        obtain rfl := Option.some.inj h
        exact .last hdigit
      · intro h
        cases h with
        | last _ => rfl
        | digit _ rest =>
            obtain ⟨_, _, _, hnil, -⟩ := rest.exists_head
            cases hnil
  | case2 c' s d' hdigit' ih =>
      rw [Option.map_eq_some_iff]
      constructor
      · rintro ⟨ds, hds, rfl⟩
        exact .underscore hdigit ((ih hdigit').mp hds)
      · intro h
        cases h with
        | digit _ rest => exact absurd rest (Grouped.not_underscore hunderscore)
        | underscore _ rest =>
            obtain ⟨c'', d'', ds, hc, hd, rfl⟩ := rest.exists_head
            obtain rfl : c' = c'' := Option.some.inj hc
            obtain rfl : d' = d'' := Option.some.inj (hdigit'.symm.trans hd)
            exact ⟨ds, (ih hdigit').mpr rest, rfl⟩
  | case3 c' s hnone =>
      refine iff_of_false nofun fun h => ?_
      cases h with
      | digit _ rest => exact Grouped.not_underscore hunderscore rest
      | underscore _ rest =>
          obtain ⟨c'', d'', -, hc, hd, -⟩ := rest.exists_head
          obtain rfl : c' = c'' := Option.some.inj hc
          rw [hnone] at hd
          cases hd
  | case4 c' s hplain d' hdigit' ih =>
      rw [Option.map_eq_some_iff]
      constructor
      · rintro ⟨ds, hds, rfl⟩
        exact .digit hdigit ((ih hdigit').mp hds)
      · intro h
        cases h with
        | digit _ rest =>
            obtain ⟨c'', d'', ds, hc, hd, rfl⟩ := rest.exists_head
            obtain rfl : c' = c'' := Option.some.inj hc
            obtain rfl : d' = d'' := Option.some.inj (hdigit'.symm.trans hd)
            exact ⟨ds, (ih hdigit').mpr rest, rfl⟩
        | underscore _ rest =>
            rw [hunderscore] at hdigit'
            cases hdigit'
  | case5 c' s hplain hnone =>
      refine iff_of_false nofun fun h => ?_
      cases h with
      | digit _ rest =>
          obtain ⟨c'', d'', -, hc, hd, -⟩ := rest.exists_head
          obtain rfl : c' = c'' := Option.some.inj hc
          rw [hnone] at hd
          cases hd
      | underscore _ rest =>
          obtain ⟨c'', d'', more, hc, -, -⟩ := rest.exists_head
          cases s with
          | nil => cases hc
          | cons c s => exact hplain c s rfl rfl

/-- A text of digits is read as the number of their values. -/
theorem grouped?_eq_some_iff (hunderscore : digit? '_' = none) {n : Nat} :
    grouped? digit? s = some n ↔ ∃ ds, Grouped digit? s ds ∧ ofDigits ds = n := by
  cases s with
  | nil =>
      refine iff_of_false nofun ?_
      rintro ⟨ds, h, -⟩
      obtain ⟨_, _, _, hnil, -⟩ := h.exists_head
      cases hnil
  | cons c s =>
      cases hdigit : digit? c with
      | none =>
          rw [grouped?, hdigit]
          refine iff_of_false nofun ?_
          rintro ⟨ds, h, -⟩
          obtain ⟨c', d', -, hc, hd, -⟩ := h.exists_head
          obtain rfl : c = c' := Option.some.inj hc
          rw [hdigit] at hd
          cases hd
      | some d =>
          simp only [grouped?, hdigit, Option.map_eq_some_iff]
          constructor
          · rintro ⟨ds, hds, rfl⟩
            exact ⟨_, (groupedDigitsAfter_eq_some_iff hunderscore hdigit).mp hds, rfl⟩
          · rintro ⟨ds, h, rfl⟩
            obtain ⟨c', d', ds, hc, hd, rfl⟩ := h.exists_head
            obtain rfl : c = c' := Option.some.inj hc
            obtain rfl : d = d' := Option.some.inj (hdigit.symm.trans hd)
            exact ⟨ds, (groupedDigitsAfter_eq_some_iff hunderscore hdigit).mpr h, rfl⟩

end

/-! ## Signs -/

theorem digitValue?_underscore : digitValue? '_' = none := rfl

theorem digitValue?_plus : digitValue? '+' = none := rfl

theorem digitValue?_minus : digitValue? '-' = none := rfl

section

variable {s : List Char} {n : Int}

theorem not_grouped_of_head {c : Char} {ds : List Nat} (h : digitValue? c = none) :
    ¬ Grouped digitValue? (c :: s) ds := by
  intro hgrouped
  obtain ⟨c', d, -, hc, hd, -⟩ := hgrouped.exists_head
  obtain rfl : c = c' := Option.some.inj hc
  rw [h] at hd
  cases hd

theorem exists_map_eq_some_iff (value : Nat → Int) :
    (grouped? digitValue? s).map value = some n ↔
      ∃ ds, Grouped digitValue? s ds ∧ value (ofDigits ds) = n := by
  rw [Option.map_eq_some_iff]
  constructor
  · rintro ⟨m, hm, rfl⟩
    obtain ⟨ds, h, rfl⟩ := (grouped?_eq_some_iff digitValue?_underscore).mp hm
    exact ⟨ds, h, rfl⟩
  · rintro ⟨ds, h, rfl⟩
    exact ⟨_, (grouped?_eq_some_iff digitValue?_underscore).mpr ⟨ds, h, rfl⟩, rfl⟩

/-- A sign and digits are read as the integer that they stand for. -/
theorem signed?_eq_some_iff : signed? (grouped? digitValue?) s = some n ↔ SignedDigits s n := by
  unfold signed?
  split
  · next s =>
      have hvalue := exists_map_eq_some_iff (s := s) (n := n) fun m => -(m : Int)
      refine Iff.trans ?_ (hvalue.trans ⟨?_, fun h => ?_⟩)
      · cases grouped? digitValue? s <;> rfl
      · rintro ⟨ds, h, rfl⟩
        exact .minus h
      · cases h with
        | unsigned h => exact absurd h (not_grouped_of_head digitValue?_minus)
        | minus h => exact ⟨_, h, rfl⟩
  · next s =>
      have hvalue := exists_map_eq_some_iff (s := s) (n := n) fun m => (m : Int)
      refine Iff.trans ?_ (hvalue.trans ⟨?_, fun h => ?_⟩)
      · cases grouped? digitValue? s <;> rfl
      · rintro ⟨ds, h, rfl⟩
        exact .plus h
      · cases h with
        | unsigned h => exact absurd h (not_grouped_of_head digitValue?_plus)
        | plus h => exact ⟨_, h, rfl⟩
  · next hminus hplus =>
      have hvalue := exists_map_eq_some_iff (s := s) (n := n) fun m => (m : Int)
      refine Iff.trans ?_ (hvalue.trans ⟨?_, fun h => ?_⟩)
      · cases grouped? digitValue? s <;> rfl
      · rintro ⟨ds, h, rfl⟩
        exact .unsigned h
      · cases h with
        | unsigned h => exact ⟨_, h, rfl⟩
        | plus _ => exact absurd rfl (hplus _)
        | minus _ => exact absurd rfl (hminus _)

end

/-! ## Spacing -/

/-- Spacing beyond ASCII. -/
def wideSpacing : List (Nat × Nat) :=
  [(0x85, 0x85), (0xa0, 0xa0), (0x1680, 0x1680), (0x2000, 0x200a), (0x2028, 0x2029),
    (0x202f, 0x202f), (0x205f, 0x205f), (0x3000, 0x3000)]

theorem isSpacing_cases {c : Char} (h : isSpacing c = true) :
    (9 ≤ c.toNat ∧ c.toNat ≤ 13) ∨ c.toNat = 32 ∨
      ∃ range ∈ wideSpacing, range.1 ≤ c.toNat ∧ c.toNat ≤ range.2 := by
  simp only [isSpacing, isBlank, Bool.and_eq_true, Bool.or_eq_true, Bool.not_eq_true',
    decide_eq_true_eq, Bool.and_eq_false_iff, decide_eq_false_iff_not] at h
  simp only [wideSpacing, List.mem_cons, List.not_mem_nil, or_false, exists_eq_or_imp,
    exists_eq_left]
  omega

/-- The digits of no script lie where spacing does. -/
theorem zeroDigits_apart : ∀ z ∈ zeroDigits, 128 ≤ z ∧
    ∀ range ∈ wideSpacing, z + 10 ≤ range.1 ∨ range.2 < z := by
  decide +kernel

theorem digitValue?_cases {c : Char} {d : Nat} (h : digitValue? c = some d) :
    (48 ≤ c.toNat ∧ c.toNat ≤ 57) ∨ ∃ z ∈ zeroDigits, z ≤ c.toNat ∧ c.toNat < z + 10 := by
  unfold digitValue? at h
  split at h
  · split at h
    · next hdigit =>
        simp only [Bool.and_eq_true, decide_eq_true_eq] at hdigit
        exact .inl ⟨hdigit.1, hdigit.2⟩
    · cases h
  · obtain ⟨z, hz, -⟩ := Option.map_eq_some_iff.mp h
    have hin := List.find?_some hz
    simp only [Bool.and_eq_true, decide_eq_true_eq] at hin
    exact .inr ⟨z, List.mem_of_find?_eq_some hz, hin⟩

/-- No digit is spacing. -/
theorem isSpacing_of_digit {c : Char} {d : Nat} (h : digitValue? c = some d) :
    isSpacing c = false := by
  have hascii : ∀ range ∈ wideSpacing, 128 ≤ range.1 := by decide
  rw [Bool.eq_false_iff]
  intro hspacing
  rcases digitValue?_cases h with hdigit | ⟨z, hz, hdigit⟩
  · rcases isSpacing_cases hspacing with hcontrol | hspace | ⟨range, hrange, hwide⟩
    · omega
    · omega
    · have := hascii range hrange
      omega
  · obtain ⟨hlarge, hapart⟩ := zeroDigits_apart z hz
    rcases isSpacing_cases hspacing with hcontrol | hspace | ⟨range, hrange, hwide⟩
    · omega
    · omega
    · have := hapart range hrange
      omega

theorem exists_trimSpacing (s : List Char) : ∃ before after, s = before ++ trimSpacing s ++ after ∧
    (∀ c ∈ before, isSpacing c = true) ∧ ∀ c ∈ after, isSpacing c = true := by
  obtain ⟨after, hafter, hspacing⟩ := exists_trimEnd_append isSpacing (s.dropWhile isSpacing)
  refine ⟨s.takeWhile isSpacing, after, ?_, fun c hc =>
    List.all_eq_true.mp List.all_takeWhile c hc, hspacing⟩
  rw [trimSpacing, List.append_assoc, ← hafter, List.takeWhile_append_dropWhile]

/-- The spacing around a text that neither begins nor ends with spacing is what is trimmed. -/
theorem trimSpacing_append {before written after : List Char}
    (hbefore : ∀ c ∈ before, isSpacing c = true) (hafter : ∀ c ∈ after, isSpacing c = true)
    (hfirst : ∃ c, written.head? = some c ∧ isSpacing c = false)
    (hlast : ∃ c, written.getLast? = some c ∧ isSpacing c = false) :
    trimSpacing (before ++ written ++ after) = written := by
  obtain ⟨first, hfirst, hnotFirst⟩ := hfirst
  obtain ⟨last, hlast, hnotLast⟩ := hlast
  obtain ⟨rest, rfl⟩ := List.head?_eq_some_iff.mp hfirst
  rw [trimSpacing, List.append_assoc, List.dropWhile_append_of_pos hbefore, List.cons_append,
    List.dropWhile_cons_of_neg (by rw [hnotFirst]; exact Bool.false_ne_true), ← List.cons_append,
    trimEnd_append_of_all hafter]
  refine trimEnd_eq_self fun c hc => ?_
  obtain rfl : last = c := Option.some.inj (hlast.symm.trans hc)
  exact hnotLast

/-! ## Settings -/

theorem SignedDigits.exists_head {s : List Char} {n : Int} (h : SignedDigits s n) :
    ∃ c, s.head? = some c ∧ isSpacing c = false := by
  cases h with
  | unsigned digits =>
      obtain ⟨c, d, _, hc, hd, -⟩ := digits.exists_head
      exact ⟨c, hc, isSpacing_of_digit hd⟩
  | plus _ => exact ⟨'+', rfl, rfl⟩
  | minus _ => exact ⟨'-', rfl, rfl⟩

theorem SignedDigits.exists_getLast {s : List Char} {n : Int} (h : SignedDigits s n) :
    ∃ c, s.getLast? = some c ∧ isSpacing c = false := by
  have hdigits : ∀ {s ds}, Grouped digitValue? s ds → ∃ c, s.getLast? = some c ∧
      isSpacing c = false := by
    intro s ds digits
    obtain ⟨c, d, hc, hd⟩ := digits.exists_getLast
    exact ⟨c, hc, isSpacing_of_digit hd⟩
  cases h with
  | unsigned digits => exact hdigits digits
  | plus digits =>
      obtain ⟨c, hc, hspacing⟩ := hdigits digits
      exact ⟨c, by rw [List.getLast?_cons, hc]; rfl, hspacing⟩
  | minus digits =>
      obtain ⟨c, hc, hspacing⟩ := hdigits digits
      exact ⟨c, by rw [List.getLast?_cons, hc]; rfl, hspacing⟩

/-- The integer of a setting is read from the texts in which it is written, and from no others. -/
theorem settingInt?_eq_some_iff {s : List Char} {n : Int} :
    settingInt? s = some n ↔ IsInteger s n := by
  rw [settingInt?, signed?_eq_some_iff]
  constructor
  · intro h
    obtain ⟨before, after, hs, hbefore, hafter⟩ := exists_trimSpacing s
    exact ⟨before, trimSpacing s, after, hs, hbefore, hafter, h⟩
  · rintro ⟨before, written, after, rfl, hbefore, hafter, h⟩
    rwa [trimSpacing_append hbefore hafter h.exists_head h.exists_getLast]

end FrontendAudit.Text
