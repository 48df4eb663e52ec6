import FrontendAudit.Proofs.Pattern.Search

/-!
# Patterns that need text

A search never goes back (`suffix_of_mem_ends`). So a pattern that somewhere must take a character
that is no blank (`needsText`) matches nowhere in a text of blanks (`matchAt?_eq_none_of_blank`).
-/

namespace FrontendAudit

namespace Text

theorem isBlankText_of_suffix {s t : List Char} (h : s <:+ t) (ht : isBlankText t = true) :
    isBlankText s = true :=
  List.all_eq_true.mpr fun c hc => List.all_eq_true.mp ht c (h.subset hc)

end Text

namespace Pattern

variable {p : Pattern} {c c' : Cursor} {before : Option Char} {s : List Char}

/-! ## Ends lie ahead -/

theorem rest_advance (c : Cursor) (n : Nat) : (c.advance n).rest = c.rest.drop n := by
  induction n generalizing c with
  | zero => rfl
  | succ n ih =>
      rw [Cursor.advance]
      split
      · next hrest => rw [hrest, List.drop_nil]
      · next hrest => rw [ih, hrest, List.drop_succ_cons]

theorem suffix_of_mem_starEnds {step : Cursor → List Cursor} {greedy : Bool} {fuel : Nat}
    (hstep : ∀ c, ∀ c' ∈ step c, c'.rest <:+ c.rest) (h : c' ∈ starEnds step greedy fuel c) :
    c'.rest <:+ c.rest := by
  induction fuel generalizing c with
  | zero => exact List.mem_singleton.mp h ▸ List.suffix_rfl
  | succ fuel ih =>
      rcases mem_starEnds_succ.mp h with rfl | ⟨m, hm, -, hrest⟩
      · exact List.suffix_rfl
      · exact (ih hrest).trans (hstep c m hm)

/-- What is left behind a stretch is left of what was there before it. -/
theorem suffix_of_mem_ends (h : c' ∈ ends p c) : c'.rest <:+ c.rest := by
  induction p generalizing c c' with
  | empty => exact List.mem_singleton.mp h ▸ List.suffix_rfl
  | chars set =>
      rw [ends] at h
      split at h
      · cases h
      · next a rest hrest =>
          obtain ⟨-, h⟩ := List.mem_ite_nil_right.mp h
          rw [List.mem_singleton.mp h, hrest]
          exact List.suffix_cons a rest
  | boundary =>
      obtain ⟨-, h⟩ := List.mem_ite_nil_right.mp h
      exact List.mem_singleton.mp h ▸ List.suffix_rfl
  | seq p q ihp ihq =>
      obtain ⟨m, hm, hend⟩ := List.mem_flatMap.mp h
      exact (ihq hend).trans (ihp hm)
  | alt p q ihp ihq => exact (List.mem_append.mp h).elim ihp ihq
  | star greedy p ih => exact suffix_of_mem_starEnds (fun _ _ => ih) h
  | group i p ih =>
      obtain ⟨m, hm, rfl⟩ := List.mem_map.mp h
      show m.rest <:+ c.rest
      exact ih hm
  | again i =>
      rw [ends] at h
      split at h
      · cases h
      · obtain ⟨-, h⟩ := List.mem_ite_nil_right.mp h
        rw [List.mem_singleton.mp h, rest_advance]
        exact List.drop_suffix _ _

/-! ## Blank texts -/

/-- Whether each stretch of the pattern must have a character that is no blank. -/
def needsText : Pattern → Bool
  | .chars s => Text.blankCodes.all fun n => !s.has (Char.ofNat n)
  | .seq p q => p.needsText || q.needsText
  | .alt p q => p.needsText && q.needsText
  | .group _ p => p.needsText
  | .empty | .boundary | .star _ _ | .again _ => false

/-- No stretch of such a pattern begins where nothing but blanks follows. -/
theorem ends_eq_nil_of_blank (hp : p.needsText = true) (hc : Text.isBlankText c.rest = true) :
    ends p c = [] := by
  induction p generalizing c with
  | chars set =>
      cases hrest : c.rest with
      | nil => simp [ends, hrest]
      | cons a rest =>
          have ha : Text.isBlank a = true := List.all_eq_true.mp hc a (by simp [hrest])
          have hnot := List.all_eq_true.mp hp a.toNat (Text.toNat_mem_blankCodes ha)
          rw [Char.ofNat_toNat, Bool.not_eq_true'] at hnot
          simp [ends, hrest, hnot]
  | seq p q ihp ihq =>
      rw [ends, List.flatMap_eq_nil_iff]
      intro m hm
      rcases Bool.or_eq_true_iff.mp hp with hp | hq
      · rw [ihp hp hc] at hm
        cases hm
      · exact ihq hq (Text.isBlankText_of_suffix (suffix_of_mem_ends hm) hc)
  | alt p q ihp ihq =>
      obtain ⟨hp, hq⟩ := Bool.and_eq_true_iff.mp hp
      rw [ends, ihp hp hc, ihq hq hc, List.append_nil]
  | group i p ih => rw [ends, ih hp hc, List.map_nil]
  | empty | boundary | star | again => cases hp

theorem matchAt?_eq_none_of_blank (hp : p.needsText = true) (hs : Text.isBlankText s = true) :
    p.matchAt? before s = none := by
  rw [matchAt?_eq_head?, ends_eq_nil_of_blank hp hs]
  rfl

theorem occursIn_eq_false_of_blank (hp : p.needsText = true) (hs : Text.isBlankText s = true) :
    p.occursIn s = false := by
  have hnone : firstFrom? p.matchAt? none s = none :=
    firstFrom?_eq_none_iff.mpr fun _ _ heq =>
      matchAt?_eq_none_of_blank hp (Text.isBlankText_of_suffix ⟨_, heq.symm⟩ hs)
  rw [occursIn_eq, hnone, Option.isSome_none]

theorem allMatches_eq_nil_of_blank (hp : p.needsText = true) (hs : Text.isBlankText s = true) :
    p.allMatches s = [] :=
  matchesFrom_eq_nil_iff.mpr fun _ _ heq =>
    matchAt?_eq_none_of_blank hp (Text.isBlankText_of_suffix ⟨_, heq.symm⟩ hs)

end Pattern

end FrontendAudit
