import FrontendAudit.Pattern.Build
import FrontendAudit.Pattern.Search
import Mathlib.Data.List.Basic
import Mathlib.Data.List.Forall2

/-!
# What patterns cover and where they are found

Which stretches a pattern covers is said piece by piece (`Covers`), whatever the order in which its
ends are tried: a stretch may end at a place exactly when the pattern covers the text up to there
(`exists_mem_ends_iff`). This holds of every pattern that never asks for a remembered stretch again.
So such a pattern occurs in a text exactly when it covers some part of it (`occursIn_iff`).

A search takes the first place of a text where something is found, and that can be any function of
the place (`firstFrom?`). In a text made of parts it goes on from part to part, as long as what is
found at a place of a part does not hang on the parts behind it (`firstFrom?_append`).
-/

namespace FrontendAudit

namespace Text

/-- The code points of the blanks. -/
def blankCodes : List Nat :=
  [9, 10, 11, 12, 13, 28, 29, 30, 31, 32, 0x85, 0xa0, 0x1680, 0x2000, 0x2001, 0x2002, 0x2003,
    0x2004, 0x2005, 0x2006, 0x2007, 0x2008, 0x2009, 0x200a, 0x2028, 0x2029, 0x202f, 0x205f, 0x3000]

theorem isWord_blankCodes : ∀ n ∈ blankCodes, isWord (Char.ofNat n) = false := by
  decide +kernel

theorem toNat_mem_blankCodes {c : Char} (h : isBlank c = true) : c.toNat ∈ blankCodes := by
  simp only [isBlank, Bool.or_eq_true, Bool.and_eq_true, decide_eq_true_eq] at h
  simp only [blankCodes, List.mem_cons, List.not_mem_nil, or_false]
  omega

theorem isWord_eq_false_of_isBlank {c : Char} (h : isBlank c = true) : isWord c = false := by
  rw [← Char.ofNat_toNat c]
  exact isWord_blankCodes _ (toNat_mem_blankCodes h)

theorem toNat_lt_of_isAsciiWord {c : Char} (h : isAsciiWord c = true) : c.toNat < 128 := by
  have hle : ∀ d : Char, d.toNat < 128 → c ≤ d → c.toNat < 128 := fun d hd hcd =>
    Nat.lt_of_le_of_lt (UInt32.le_iff_toNat_le.mp hcd) hd
  simp only [isAsciiWord, Bool.or_eq_true, Bool.and_eq_true, decide_eq_true_eq] at h
  rcases h with ((⟨-, h⟩ | ⟨-, h⟩) | ⟨-, h⟩) | rfl
  · exact hle 'z' (by decide) h
  · exact hle 'Z' (by decide) h
  · exact hle '9' (by decide) h
  · decide

theorem isWord_of_isAsciiWord {c : Char} (h : isAsciiWord c = true) : isWord c = true := by
  rw [isWord_of_ascii (toNat_lt_of_isAsciiWord h), h]

end Text

namespace Pattern

variable {p q : Pattern} {before before' : Option Char} {s t after : List Char}
  {groups : List (Nat × List Char)}

/-- What stands before the place behind the text `t`. -/
def behind (before : Option Char) (t : List Char) : Option Char :=
  t.getLast?.or before

@[simp] theorem behind_nil (before : Option Char) : behind before [] = before := rfl

@[simp] theorem behind_cons (before : Option Char) (a : Char) (t : List Char) :
    behind before (a :: t) = behind (some a) t := by
  rw [behind, behind, List.getLast?_cons]
  cases t.getLast? <;> rfl

theorem behind_append (before : Option Char) (s t : List Char) :
    behind before (s ++ t) = behind (behind before s) t := by
  induction s generalizing before with
  | nil => rfl
  | cons a s ih => rw [List.cons_append, behind_cons, behind_cons, ih]

/-- In front of a word character there is a boundary if none stands before it. -/
theorem isBoundary_word {c : Char} (hc : Text.isWord c = true) :
    Text.isBoundary before (some c) = true ↔ before.any Text.isWord = false := by
  rw [Text.isBoundary, Option.any_some, hc]
  cases before.any Text.isWord <;> decide

/-- A text has one part up to the first place of a character. -/
theorem append_cons_inj {c : Char} {u v : List Char} (hs : c ∉ s) (ht : c ∉ t)
    (h : s ++ c :: u = t ++ c :: v) : s = t ∧ u = v := by
  induction s generalizing t with
  | nil =>
      cases t with
      | nil => exact ⟨rfl, (List.cons.inj h).2⟩
      | cons b t => exact absurd (List.cons.inj h).1 (List.ne_of_not_mem_cons ht)
  | cons a s ih =>
      cases t with
      | nil => exact absurd (List.cons.inj h).1.symm (List.ne_of_not_mem_cons hs)
      | cons b t =>
          obtain ⟨rfl, hlater⟩ := List.cons.inj h
          obtain ⟨rfl, hrest⟩ :=
            ih (List.not_mem_of_not_mem_cons hs) (List.not_mem_of_not_mem_cons ht) hlater
          exact ⟨rfl, hrest⟩

/-- A text with one place of a character has one part before it. -/
theorem append_cons_inj_of_once {c : Char} {u v : List Char} (hs : c ∉ s) (hu : c ∉ u)
    (h : s ++ c :: u = t ++ c :: v) : s = t ∧ u = v := by
  rcases List.append_eq_append_iff.mp h with ⟨more, rfl, hmore⟩ | ⟨more, rfl, hmore⟩
  · cases more with
    | nil => simpa using hmore
    | cons d more =>
        obtain ⟨rfl, rfl⟩ := List.cons.inj hmore
        exact absurd (List.mem_append_right more List.mem_cons_self) hu
  · cases more with
    | nil => simpa [eq_comm] using hmore
    | cons d more =>
        obtain ⟨rfl, rfl⟩ := List.cons.inj hmore
        exact absurd (List.mem_append_right t List.mem_cons_self) hs

/-! ## What a pattern covers -/

/-- Any number of stretches, one after the other and none of them empty. -/
inductive Repeats (covers : Option Char → List Char → List Char → Prop) :
    Option Char → List Char → List Char → Prop where
  | nil {before : Option Char} {after : List Char} : Repeats covers before [] after
  | cons {before : Option Char} {t rest after : List Char} :
      t ≠ [] → covers before t (rest ++ after) →
      Repeats covers (behind before t) rest after → Repeats covers before (t ++ rest) after

/-- The pattern covers the text `t` that stands between `before` and `after`. A stretch that is
remembered is a stretch like any other, and nothing is said of stretches that are asked for
again. -/
def Covers : Pattern → Option Char → List Char → List Char → Prop
  | .empty, _, t, _ => t = []
  | .chars s, _, t, _ => ∃ a, t = [a] ∧ s.has a = true
  | .boundary, before, t, after => t = [] ∧ Text.isBoundary before after.head? = true
  | .seq p q, before, t, after =>
      ∃ t₁ t₂, t = t₁ ++ t₂ ∧ Covers p before t₁ (t₂ ++ after) ∧
      Covers q (behind before t₁) t₂ after
  | .alt p q, before, t, after => Covers p before t after ∨ Covers q before t after
  | .star _ p, before, t, after => Repeats (Covers p) before t after
  | .group _ p, before, t, after => Covers p before t after
  | .again _, _, _, _ => False

/-- Whether a remembered stretch is asked for again. -/
def recalls : Pattern → Bool
  | .again _ => true
  | .seq p q | .alt p q => p.recalls || q.recalls
  | .star _ p | .group _ p => p.recalls
  | .empty | .chars _ | .boundary => false

theorem mem_starEnds_succ {step : Cursor → List Cursor} {greedy : Bool} {fuel : Nat}
    {c c' : Cursor} :
    c' ∈ starEnds step greedy (fuel + 1) c ↔
      c' = c ∨ ∃ m ∈ step c, m.rest.length < c.rest.length ∧ c' ∈ starEnds step greedy fuel m := by
  have hmore : c' ∈ ((step c).flatMap fun m =>
      if m.rest.length < c.rest.length then starEnds step greedy fuel m else []) ↔
      ∃ m ∈ step c, m.rest.length < c.rest.length ∧ c' ∈ starEnds step greedy fuel m := by
    simp only [List.mem_flatMap, List.mem_ite_nil_right]
  cases greedy
  · simp only [starEnds, Bool.false_eq_true, if_false, List.mem_cons, hmore]
  · simp only [starEnds, if_true, List.mem_append, List.mem_singleton, hmore, or_comm]

/-- Repetition ends where its steps lead, as often as the length of the text allows. -/
theorem exists_mem_starEnds_iff {step : Cursor → List Cursor}
    {covers : Option Char → List Char → List Char → Prop}
    (hstep : ∀ before s groups before' after,
      (∃ groups', ⟨before', after, groups'⟩ ∈ step ⟨before, s, groups⟩) ↔
        ∃ t, s = t ++ after ∧ before' = behind before t ∧ covers before t after)
    (greedy : Bool) {fuel : Nat} (hfuel : s.length ≤ fuel) :
    (∃ groups', ⟨before', after, groups'⟩ ∈ starEnds step greedy fuel ⟨before, s, groups⟩) ↔
      ∃ t, s = t ++ after ∧ before' = behind before t ∧ Repeats covers before t after := by
  induction fuel generalizing before s groups with
  | zero =>
      obtain rfl := List.length_eq_zero_iff.mp (Nat.le_zero.mp hfuel)
      simp only [starEnds, List.mem_singleton, Cursor.mk.injEq]
      constructor
      · rintro ⟨_, rfl, rfl, -⟩
        exact ⟨[], rfl, rfl, .nil⟩
      · rintro ⟨t, heq, rfl, -⟩
        obtain ⟨rfl, rfl⟩ := List.append_eq_nil_iff.mp heq.symm
        exact ⟨groups, rfl, rfl, rfl⟩
  | succ fuel ih =>
      simp only [mem_starEnds_succ, Cursor.mk.injEq]
      constructor
      · rintro ⟨groups', ⟨rfl, rfl, -⟩ | ⟨⟨b, r, g⟩, hm, hlt, hrest⟩⟩
        · exact ⟨[], rfl, rfl, .nil⟩
        · obtain ⟨t, rfl, rfl, ht⟩ := (hstep before s groups b r).mp ⟨g, hm⟩
          have hne : t ≠ [] := by
            rintro rfl
            simp at hlt
          obtain ⟨t', rfl, rfl, ht'⟩ := (ih (by simp at hlt hfuel; omega)).mp ⟨groups', hrest⟩
          exact ⟨t ++ t', (List.append_assoc ..).symm, (behind_append ..).symm, .cons hne ht ht'⟩
      · rintro ⟨t, rfl, rfl, ht⟩
        cases ht with
        | nil => exact ⟨groups, .inl ⟨rfl, rfl, rfl⟩⟩
        | @cons _ t t' _ hne ht ht' =>
            obtain ⟨g, hm⟩ := (hstep before (t ++ (t' ++ after)) groups _ _).mpr ⟨t, rfl, rfl, ht⟩
            have hpos : 0 < t.length := List.length_pos_iff.mpr hne
            have hlt : (t' ++ after).length < (t ++ t' ++ after).length := by simp; omega
            obtain ⟨groups', hrest⟩ : ∃ groups', ⟨behind before (t ++ t'), after, groups'⟩ ∈
                starEnds step greedy fuel ⟨behind before t, t' ++ after, g⟩ :=
              (ih (Nat.le_of_lt_succ (Nat.lt_of_lt_of_le hlt hfuel))).mpr ⟨t', rfl,
                behind_append .., ht'⟩
            rw [← List.append_assoc] at hm
            exact ⟨groups', .inr ⟨_, hm, hlt, hrest⟩⟩

/-- A stretch may end at a place exactly when the pattern covers the text up to there. -/
theorem exists_mem_ends_iff (hp : p.recalls = false) :
    (∃ groups', ⟨before', after, groups'⟩ ∈ ends p ⟨before, s, groups⟩) ↔
      ∃ t, s = t ++ after ∧ before' = behind before t ∧ Covers p before t after := by
  induction p generalizing before s groups before' after with
  | empty =>
      simp only [ends, List.mem_singleton, Cursor.mk.injEq, Covers]
      constructor
      · rintro ⟨_, rfl, rfl, -⟩
        exact ⟨[], rfl, rfl, rfl⟩
      · rintro ⟨t, rfl, rfl, rfl⟩
        exact ⟨groups, rfl, rfl, rfl⟩
  | chars set =>
      cases s with
      | nil => simp [ends, Covers]
      | cons a s =>
          simp only [ends, List.mem_ite_nil_right, List.mem_singleton, Cursor.mk.injEq, Covers]
          constructor
          · rintro ⟨_, ha, rfl, rfl, -⟩
            exact ⟨[a], rfl, rfl, a, rfl, ha⟩
          · rintro ⟨t, heq, rfl, b, rfl, hb⟩
            obtain ⟨rfl, rfl⟩ := List.cons.inj heq
            exact ⟨groups, hb, rfl, rfl, rfl⟩
  | boundary =>
      simp only [ends, List.mem_ite_nil_right, List.mem_singleton, Cursor.mk.injEq, Covers]
      constructor
      · rintro ⟨_, hb, rfl, rfl, -⟩
        exact ⟨[], rfl, rfl, rfl, hb⟩
      · rintro ⟨t, rfl, rfl, rfl, hb⟩
        exact ⟨groups, hb, rfl, rfl, rfl⟩
  | seq p q ihp ihq =>
      simp only [recalls, Bool.or_eq_false_iff] at hp
      simp only [ends, List.mem_flatMap, Covers]
      constructor
      · rintro ⟨groups', ⟨b, r, g⟩, hm, hend⟩
        obtain ⟨t₁, rfl, rfl, h₁⟩ := (ihp hp.1).mp ⟨g, hm⟩
        obtain ⟨t₂, rfl, rfl, h₂⟩ := (ihq hp.2).mp ⟨groups', hend⟩
        exact ⟨t₁ ++ t₂, (List.append_assoc ..).symm, (behind_append ..).symm, t₁, t₂, rfl, h₁, h₂⟩
      · rintro ⟨t, rfl, rfl, t₁, t₂, rfl, h₁, h₂⟩
        obtain ⟨g, hm⟩ : ∃ g, ⟨behind before t₁, t₂ ++ after, g⟩ ∈
            ends p ⟨before, t₁ ++ (t₂ ++ after), groups⟩ := (ihp hp.1).mpr ⟨t₁, rfl, rfl, h₁⟩
        obtain ⟨groups', hend⟩ : ∃ groups', ⟨behind (behind before t₁) t₂, after, groups'⟩ ∈
            ends q ⟨behind before t₁, t₂ ++ after, g⟩ := (ihq hp.2).mpr ⟨t₂, rfl, rfl, h₂⟩
        refine ⟨groups', _, ?_, behind_append before t₁ t₂ ▸ hend⟩
        rwa [List.append_assoc]
  | alt p q ihp ihq =>
      simp only [recalls, Bool.or_eq_false_iff] at hp
      simp only [ends, List.mem_append, exists_or, ihp hp.1, ihq hp.2, Covers, and_or_left]
  | star greedy p ih =>
      exact exists_mem_starEnds_iff (fun _ _ _ _ _ => ih hp) greedy (Nat.le_refl _)
  | group i p ih =>
      have hinner : (∃ groups', ⟨before', after, groups'⟩ ∈ ends p ⟨before, s, groups⟩) ↔
          ∃ t, s = t ++ after ∧ before' = behind before t ∧ Covers p before t after := ih hp
      simp only [ends, List.mem_map, Covers]
      rw [← hinner]
      constructor
      · rintro ⟨_, ⟨b, r, g⟩, hm, heq⟩
        simp only [Cursor.remember, Cursor.mk.injEq] at heq
        obtain ⟨rfl, rfl, -⟩ := heq
        exact ⟨g, hm⟩
      · rintro ⟨g, hm⟩
        exact ⟨_, _, hm, rfl⟩
  | again i => cases hp

/-! ## What stands at a place -/

theorem upTo_append (before before' : Option Char) (t after : List Char)
    (groups groups' : List (Nat × List Char)) :
    (⟨before, t ++ after, groups⟩ : Cursor).upTo ⟨before', after, groups'⟩ = t := by
  simp [Cursor.upTo]

theorem matchAt?_eq_head? (p : Pattern) (before : Option Char) (s : List Char) :
    p.matchAt? before s = (ends p ⟨before, s, []⟩).head?.map fun c =>
      ⟨(⟨before, s, []⟩ : Cursor).upTo c, c.groups⟩ := by
  rw [matchAt?, first_eq_findSome?]
  cases ends p ⟨before, s, []⟩ <;> rfl

theorem isSome_matchAt?_iff (hp : p.recalls = false) :
    (p.matchAt? before s).isSome = true ↔ ∃ t after, s = t ++ after ∧ Covers p before t after := by
  rw [matchAt?_eq_head?, Option.isSome_map, List.isSome_head?]
  constructor
  · intro hne
    obtain ⟨⟨before', after, groups'⟩, hmem⟩ := List.exists_mem_of_ne_nil _ hne
    obtain ⟨t, heq, -, ht⟩ := (exists_mem_ends_iff hp).mp ⟨groups', hmem⟩
    exact ⟨t, after, heq, ht⟩
  · rintro ⟨t, after, heq, ht⟩
    obtain ⟨groups', hmem⟩ :
        ∃ groups', ⟨behind before t, after, groups'⟩ ∈ ends p ⟨before, s, []⟩ :=
      (exists_mem_ends_iff hp).mpr ⟨t, heq, rfl, ht⟩
    exact List.ne_nil_of_mem hmem

/-- The text of a match is covered. -/
theorem covers_of_matchAt? {m : Match} (hp : p.recalls = false) (h : p.matchAt? before s = some m) :
    ∃ after, s = m.text ++ after ∧ Covers p before m.text after := by
  rw [matchAt?_eq_head?, Option.map_eq_some_iff] at h
  obtain ⟨⟨before', after, groups'⟩, hhead, rfl⟩ := h
  obtain ⟨t, rfl, -, ht⟩ := (exists_mem_ends_iff hp).mp ⟨groups', List.mem_of_mem_head? hhead⟩
  rw [upTo_append]
  exact ⟨after, rfl, ht⟩

theorem matchAt?_eq_none_iff (hp : p.recalls = false) :
    p.matchAt? before s = none ↔ ∀ t after, s = t ++ after → ¬Covers p before t after := by
  rw [← Option.not_isSome_iff_eq_none, isSome_matchAt?_iff hp]
  push Not
  rfl

/-! ## The first place -/

section

variable {β γ : Type} {f g : Option Char → List Char → Option β}

/-- What `f` finds at the first place of a text where it finds something. -/
def firstFrom? (f : Option Char → List Char → Option β)
    (before : Option Char) : List Char → Option β
  | [] => f before []
  | a :: s => (f before (a :: s)).or (firstFrom? f (some a) s)

theorem firstFrom?_eq_none_iff :
    firstFrom? f before s = none ↔ ∀ s₁ s₂, s = s₁ ++ s₂ → f (behind before s₁) s₂ = none := by
  induction s generalizing before with
  | nil =>
      refine ⟨fun h s₁ s₂ heq => ?_, fun h => h [] [] rfl⟩
      obtain ⟨rfl, rfl⟩ := List.append_eq_nil_iff.mp heq.symm
      exact h
  | cons a s ih =>
      rw [firstFrom?, Option.or_eq_none_iff, ih]
      constructor
      · rintro ⟨hhere, hlater⟩ s₁ s₂ heq
        cases s₁ with
        | nil =>
            rw [List.nil_append] at heq
            exact heq ▸ hhere
        | cons b s₁ =>
            obtain ⟨rfl, rfl⟩ := List.cons.inj heq
            rw [behind_cons]
            exact hlater s₁ s₂ rfl
      · intro h
        refine ⟨h [] _ rfl, fun s₁ s₂ heq => ?_⟩
        rw [← behind_cons before a]
        exact h (a :: s₁) s₂ (by rw [heq]; rfl)

/-- A text in two parts is searched part by part, if what is found in the first does not hang on the
second. -/
theorem firstFrom?_append (hend : ∀ before, f before [] = none)
    (hwithin : ∀ s₁ s₂, s = s₁ ++ s₂ → s₂ ≠ [] →
      f (behind before s₁) (s₂ ++ t) = f (behind before s₁) s₂) :
    firstFrom? f before (s ++ t) =
      (firstFrom? f before s).or (firstFrom? f (behind before s) t) := by
  induction s generalizing before with
  | nil => rw [firstFrom?, hend]; rfl
  | cons a s ih =>
      have hlater : ∀ s₁ s₂, s = s₁ ++ s₂ → s₂ ≠ [] →
          f (behind (some a) s₁) (s₂ ++ t) = f (behind (some a) s₁) s₂ := by
        intro s₁ s₂ heq hne
        rw [← behind_cons before a]
        exact hwithin (a :: s₁) s₂ (by rw [heq]; rfl) hne
      have hhere : f before (a :: (s ++ t)) = f before (a :: s) :=
        hwithin [] (a :: s) rfl (List.cons_ne_nil a s)
      rw [List.cons_append, firstFrom?, firstFrom?, hhere, ih hlater, behind_cons, Option.or_assoc]

/-- What stands before a text matters only where the text begins. -/
theorem firstFrom?_congr_before (h : f before s = f before' s) :
    firstFrom? f before s = firstFrom? f before' s := by
  cases s with
  | nil => exact h
  | cons a s => rw [firstFrom?, firstFrom?, h]

theorem map_searchFrom? (g : Match → β) (p : Pattern) (before : Option Char) (s : List Char) :
    (p.searchFrom? before s).map g =
      firstFrom? (fun before s => (p.matchAt? before s).map g) before s := by
  induction s generalizing before with
  | nil => rfl
  | cons a s ih =>
      rw [searchFrom?, firstFrom?, ← ih]
      cases p.matchAt? before (a :: s) <;> rfl

end

theorem occursIn_eq (p : Pattern) (s : List Char) :
    p.occursIn s = (firstFrom? p.matchAt? none s).isSome := by
  have hsearch := map_searchFrom? id p none s
  simp only [Option.map_id, id_eq] at hsearch
  rw [occursIn, search?, hsearch]

/-- A pattern occurs in a text exactly when it covers some part of it. -/
theorem occursIn_iff (hp : p.recalls = false) :
    p.occursIn s = true ↔
      ∃ s₁ t after, s = s₁ ++ (t ++ after) ∧ Covers p (behind none s₁) t after := by
  rw [occursIn_eq, Option.isSome_iff_ne_none, ne_eq, firstFrom?_eq_none_iff]
  push Not
  constructor
  · rintro ⟨s₁, s₂, heq, hfound⟩
    obtain ⟨t, after, rfl, ht⟩ := (isSome_matchAt?_iff hp).mp (Option.isSome_iff_ne_none.mpr hfound)
    exact ⟨s₁, t, after, heq, ht⟩
  · rintro ⟨s₁, t, after, heq, ht⟩
    exact ⟨s₁, t ++ after, heq,
      Option.isSome_iff_ne_none.mp ((isSome_matchAt?_iff hp).mpr ⟨t, after, rfl, ht⟩)⟩

/-! ## All matches -/

theorem matchesFrom_append (hnone : ∀ s₁ s₂, s = s₁ ++ s₂ → s₂ ≠ [] →
    p.matchAt? (behind before s₁) (s₂ ++ t) = none) :
    p.matchesFrom before 0 (s ++ t) = p.matchesFrom (behind before s) 0 t := by
  induction s generalizing before with
  | nil => rfl
  | cons a s ih =>
      have hhere : p.matchAt? before (a :: (s ++ t)) = none :=
        hnone [] (a :: s) rfl (List.cons_ne_nil a s)
      rw [List.cons_append, matchesFrom]
      simp only [hhere]
      rw [ih, behind_cons]
      intro s₁ s₂ heq hne
      rw [← behind_cons before a]
      exact hnone (a :: s₁) s₂ (by rw [heq]; rfl) hne

theorem matchesFrom_eq_nil_iff :
    p.matchesFrom before 0 s = [] ↔
      ∀ s₁ s₂, s = s₁ ++ s₂ → p.matchAt? (behind before s₁) s₂ = none := by
  rw [← firstFrom?_eq_none_iff]
  induction s generalizing before with
  | nil =>
      rw [matchesFrom, firstFrom?, if_pos rfl]
      cases p.matchAt? before [] <;> simp
  | cons a s ih =>
      rw [matchesFrom, firstFrom?]
      cases hhere : p.matchAt? before (a :: s) with
      | none => simpa using ih
      | some m => simp

theorem matchesFrom_length (before : Option Char) (t after : List Char) :
    p.matchesFrom before t.length (t ++ after) = p.matchesFrom (behind before t) 0 after := by
  induction t generalizing before with
  | nil => rfl
  | cons a t ih =>
      rw [List.cons_append, List.length_cons, matchesFrom, ih, behind_cons]

/-- Behind a match that is not empty the search goes on. -/
theorem matchesFrom_of_matchAt? {m : Match} (h : p.matchAt? before (m.text ++ after) = some m)
    (hne : m.text ≠ []) :
    p.matchesFrom before 0 (m.text ++ after) =
      m :: p.matchesFrom (behind before m.text) 0 after := by
  obtain ⟨a, t, ht⟩ := List.exists_cons_of_ne_nil hne
  rw [ht, List.cons_append] at h ⊢
  rw [matchesFrom]
  simp only [h]
  rw [ht, List.length_cons, Nat.add_sub_cancel, matchesFrom_length, behind_cons]

/-! ## Patterns that are built from others -/

theorem covers_seqs_cons {ps : List Pattern} :
    Covers (seqs (p :: ps)) before t after ↔
      ∃ t₁ t₂, t = t₁ ++ t₂ ∧ Covers p before t₁ (t₂ ++ after) ∧
        Covers (seqs ps) (behind before t₁) t₂ after := by
  cases ps with
  | nil => simp [seqs, Covers]
  | cons q ps => rfl

theorem covers_seqs_nil : Covers (seqs []) before t after ↔ t = [] := Iff.rfl

theorem ends_seqs_cons (p : Pattern) (ps : List Pattern) (c : Cursor) :
    ends (seqs (p :: ps)) c = (ends p c).flatMap (ends (seqs ps)) := by
  cases ps with
  | nil => exact (List.flatMap_singleton' (ends p c)).symm
  | cons q ps => rfl

theorem ends_seqs_append (ps qs : List Pattern) (c : Cursor) :
    ends (seqs (ps ++ qs)) c = (ends (seqs ps) c).flatMap (ends (seqs qs)) := by
  induction ps generalizing c with
  | nil => exact (List.flatMap_singleton (ends (seqs qs)) c).symm
  | cons p ps ih =>
      rw [List.cons_append, ends_seqs_cons, ends_seqs_cons, List.flatMap_assoc]
      exact congrArg (ends p c).flatMap (funext ih)

/-- A lazy repetition of single characters ends before each of them, as far as they are in the
set. -/
theorem ends_few_chars_cons (set : CharSet) (a : Char) (before : Option Char) (s : List Char)
    (groups : List (Nat × List Char)) :
    ends (few (.chars set)) ⟨before, a :: s, groups⟩ =
      ⟨before, a :: s, groups⟩ ::
        if set.has a then ends (few (.chars set)) ⟨some a, s, groups⟩ else [] := by
  cases ha : set.has a <;> simp [few, ends, starEnds, ha]

theorem covers_oneOf_iff {ps : List Pattern} :
    Covers (oneOf ps) before t after ↔ ∃ p ∈ ps, Covers p before t after := by
  induction ps with
  | nil => simp [oneOf, Covers, CharSet.has]
  | cons p ps ih =>
      cases ps with
      | nil => simp [oneOf]
      | cons q ps =>
          rw [List.exists_mem_cons_iff, ← ih]
          rfl

theorem recalls_seqs (ps : List Pattern) : (seqs ps).recalls = ps.any recalls := by
  induction ps with
  | nil => rfl
  | cons p ps ih =>
      cases ps with
      | nil => simp [seqs]
      | cons q ps => rw [List.any_cons, ← ih]; rfl

theorem covers_seqs_chars {kind : Char → CharSet} {cs : List Char} :
    Covers (seqs (cs.map fun c => .chars (kind c))) before t after ↔
      List.Forall₂ (fun c a => (kind c).has a = true) cs t := by
  induction cs generalizing before t with
  | nil => simp [seqs, Covers]
  | cons c cs ih =>
      rw [List.map_cons, covers_seqs_cons]
      constructor
      · rintro ⟨_, t₂, rfl, ⟨a, rfl, ha⟩, h₂⟩
        exact .cons ha (ih.mp h₂)
      · rintro (_ | ⟨ha, h₂⟩)
        exact ⟨_, _, rfl, ⟨_, rfl, ha⟩, ih.mpr h₂⟩

theorem has_one {c a : Char} : (⟨false, [.one c]⟩ : CharSet).has a = true ↔ a = c := by
  simp [CharSet.has, CharKind.holds]

theorem has_map_one {cs : List Char} {a : Char} :
    (⟨false, cs.map .one⟩ : CharSet).has a = true ↔ a ∈ cs := by
  simp [CharSet.has, CharKind.holds, List.any_map]

theorem has_except_map_one {cs : List Char} {a : Char} :
    (⟨true, cs.map .one⟩ : CharSet).has a = true ↔ a ∉ cs := by
  rw [← has_map_one, CharSet.has, CharSet.has]
  simp

theorem has_blank {a : Char} :
    (⟨false, [.blank]⟩ : CharSet).has a = true ↔ Text.isBlank a = true := by
  simp [CharSet.has, CharKind.holds]

/-- A word covers itself. -/
theorem covers_word_iff {w : String} : Covers (word w) before t after ↔ t = w.toList := by
  rw [word, covers_seqs_chars]
  simp only [has_one]
  exact ⟨fun h => (List.forall₂_eq_eq_eq ▸ h.flip), fun h => h ▸ List.forall₂_refl _⟩

/-- The text is the word in some case. -/
def InAnyCase (w : String) (t : List Char) : Prop :=
  List.Forall₂ (fun c a => a ∈ caseVariants c) w.toList t

instance (w : String) (t : List Char) : Decidable (InAnyCase w t) :=
  inferInstanceAs (Decidable (List.Forall₂ _ _ _))

theorem InAnyCase.length_eq {w : String} (h : InAnyCase w t) : t.length = w.toList.length :=
  (List.Forall₂.length_eq h).symm

theorem covers_caseless_iff {w : String} : Covers (caseless w) before t after ↔ InAnyCase w t := by
  rw [caseless, covers_seqs_chars]
  simp only [has_map_one, InAnyCase]

theorem covers_anyWord_iff {ws : List String} :
    Covers (anyWord ws) before t after ↔ ∃ w ∈ ws, t = w.toList := by
  rw [anyWord, covers_oneOf_iff]
  simp only [List.mem_map, exists_exists_and_eq_and, covers_word_iff]

theorem covers_anyCaseless_iff {ws : List String} :
    Covers (anyCaseless ws) before t after ↔ ∃ w ∈ ws, InAnyCase w t := by
  rw [anyCaseless, covers_oneOf_iff]
  simp only [List.mem_map, exists_exists_and_eq_and, covers_caseless_iff]

theorem covers_many_chars_iff {set : CharSet} :
    Covers (many (.chars set)) before t after ↔ ∀ a ∈ t, set.has a = true := by
  constructor
  · intro h
    induction h with
    | nil => exact fun a ha => absurd ha List.not_mem_nil
    | cons _ hone _ ih =>
        obtain ⟨a, rfl, ha⟩ := hone
        exact List.forall_mem_cons.mpr ⟨ha, ih⟩
  · intro h
    induction t generalizing before with
    | nil => exact .nil
    | cons a t ih =>
        obtain ⟨ha, ht⟩ := List.forall_mem_cons.mp h
        exact .cons (t := [a]) (List.cons_ne_nil a []) ⟨a, rfl, ha⟩ (ih ht)

theorem covers_blanks_iff :
    Covers blanks before t after ↔ ∀ a ∈ t, Text.isBlank a = true := by
  refine covers_many_chars_iff.trans ?_
  simp only [has_blank]

theorem covers_many_except_iff {cs : String} :
    Covers (many (except cs)) before t after ↔ ∀ a ∈ t, a ∉ cs.toList := by
  refine covers_many_chars_iff.trans ?_
  simp only [has_except_map_one]

theorem recalls_seqs_chars (cs : List Char) (kind : Char → CharSet) :
    (seqs (cs.map fun c => .chars (kind c))).recalls = false := by
  rw [recalls_seqs, List.any_map]
  simp [recalls]

@[simp] theorem recalls_word (w : String) : (word w).recalls = false := recalls_seqs_chars ..

theorem forall_mem_of_forall₂ {R : Char → Char → Prop} {P : Char → Prop} (h : List.Forall₂ R s t)
    (hP : ∀ c ∈ s, ∀ a, R c a → P a) : ∀ a ∈ t, P a := by
  induction h with
  | nil => exact fun a ha => absurd ha List.not_mem_nil
  | cons hone _ ih =>
      obtain ⟨hhead, htail⟩ := List.forall_mem_cons.mp hP
      exact List.forall_mem_cons.mpr ⟨hhead _ hone, ih htail⟩

theorem ascii_caseVariants : ∀ i : Fin 26, ∀ j : Fin 128,
    Char.ofNat j ∈ caseVariants (Char.ofNat (97 + i)) ↔
      (Char.ofNat j).toLower = Char.ofNat (97 + i) := by
  decide +kernel

theorem mem_caseVariants_iff {c a : Char} (hlower : c.isLower = true) (ha : a.toNat < 128) :
    a ∈ caseVariants c ↔ a.toLower = c := by
  have hc : 97 ≤ c.toNat ∧ c.toNat ≤ 122 := by
    have hbounds := Bool.and_eq_true_iff.mp hlower
    exact ⟨UInt32.le_iff_toNat_le.mp (of_decide_eq_true hbounds.1),
      UInt32.le_iff_toNat_le.mp (of_decide_eq_true hbounds.2)⟩
  have h := ascii_caseVariants ⟨c.toNat - 97, by omega⟩ ⟨a.toNat, ha⟩
  rwa [Char.ofNat_toNat, Nat.add_sub_cancel' hc.1, Char.ofNat_toNat] at h

/-- Among ASCII texts, those in any case of a word of small letters are those whose small letters
are the word. -/
theorem inAnyCase_iff {w : String} (hw : w.toList.all Char.isLower = true)
    (ht : ∀ a ∈ t, a.toNat < 128) :
    InAnyCase w t ↔ t.map Char.toLower = w.toList := by
  rw [List.all_eq_true] at hw
  rw [InAnyCase, ← List.forall₂_eq_eq_eq, List.forall₂_map_left_iff]
  generalize w.toList = cs at hw ⊢
  induction t generalizing cs with
  | nil => simp
  | cons a t ih =>
      obtain ⟨ha, ht⟩ := List.forall_mem_cons.mp ht
      cases cs with
      | nil => simp
      | cons c cs =>
          obtain ⟨hc, hcs⟩ := List.forall_mem_cons.mp hw
          rw [List.forall₂_cons, List.forall₂_cons, mem_caseVariants_iff hc ha, ih ht cs hcs]

end Pattern

end FrontendAudit
