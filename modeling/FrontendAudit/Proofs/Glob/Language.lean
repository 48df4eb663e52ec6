import FrontendAudit.Glob.Basic

/-!
# The language of a glob

What a glob describes is said piece by piece (`Describes`), without the tails that matching goes
through: a text is described by two globs in a row when it falls into a part for each
(`describes_append`). Matching decides this language up to a line feed at the end of a text
(`covers_iff`).
-/

namespace FrontendAudit.Glob

/-- Any number of segments that are not empty, each with a slash after it. -/
inductive DirectoryText : List Char → Prop where
  | nil : DirectoryText []
  | cons {segment rest : List Char} : segment ≠ [] → '/' ∉ segment → DirectoryText rest →
      DirectoryText (segment ++ '/' :: rest)

/-- The texts that a glob describes as a whole. -/
def Describes : Glob → List Char → Prop
  | [], s => s = []
  | .one k :: g, s => ∃ c rest, s = c :: rest ∧ k.has c = true ∧ Describes g rest
  | .run k :: g, s => ∃ a b, s = a ++ b ∧ (∀ c ∈ a, k.has c = true) ∧ Describes g b
  | .directories :: g, s => ∃ a b, s = a ++ b ∧ DirectoryText a ∧ Describes g b

/-! ## Directories -/

theorem DirectoryText.append {a b : List Char} (ha : DirectoryText a) (hb : DirectoryText b) :
    DirectoryText (a ++ b) := by
  induction ha with
  | nil => exact hb
  | cons hne hslash _ ih =>
      rw [List.append_assoc, List.cons_append]
      exact .cons hne hslash ih

/-! ## The tails that matching goes through -/

theorem mem_runTails {k : CharSet} {s t : List Char} :
    t ∈ runTails k s ↔ ∃ a, s = a ++ t ∧ ∀ c ∈ a, k.has c = true := by
  induction s with
  | nil =>
      rw [runTails, List.mem_singleton]
      constructor
      · rintro rfl
        exact ⟨[], rfl, fun _ h => by cases h⟩
      · rintro ⟨a, heq, -⟩
        exact (List.append_eq_nil_iff.mp heq.symm).2
  | cons c s ih =>
      rw [runTails, List.mem_cons]
      constructor
      · rintro (rfl | h)
        · exact ⟨[], rfl, fun _ h => by cases h⟩
        · split at h
          · next hc =>
              obtain ⟨a, rfl, ha⟩ := ih.mp h
              refine ⟨c :: a, rfl, ?_⟩
              intro d hd
              rcases List.mem_cons.mp hd with rfl | hd
              · exact hc
              · exact ha d hd
          · cases h
      · rintro ⟨a, heq, ha⟩
        cases a with
        | nil => exact .inl heq.symm
        | cons d a =>
            obtain ⟨rfl, rfl⟩ := List.cons.inj heq
            rw [if_pos (ha c List.mem_cons_self)]
            exact .inr (ih.mpr ⟨a, rfl, fun d hd => ha d (List.mem_cons_of_mem c hd)⟩)

/-- What is left after directories, seen from inside a segment and from its front. -/
theorem mem_directoryTails {s t : List Char} :
    (t ∈ directoryTails true s ↔
      ∃ segment a, s = segment ++ '/' :: (a ++ t) ∧ '/' ∉ segment ∧ DirectoryText a) ∧
    (t ∈ directoryTails false s ↔
      ∃ segment a, s = segment ++ '/' :: (a ++ t) ∧ segment ≠ [] ∧ '/' ∉ segment ∧
        DirectoryText a) := by
  -- each of the two is needed for the other: a slash ends a segment, any other character is in one
  induction s with
  | nil => simp [directoryTails]
  | cons c s ih =>
      by_cases hc : c = '/'
      · subst hc
        constructor
        · rw [directoryTails, if_pos rfl, if_pos rfl, List.mem_cons]
          constructor
          · rintro (rfl | h)
            · exact ⟨[], [], rfl, List.not_mem_nil, .nil⟩
            · obtain ⟨segment, a, rfl, hne, hslash, ha⟩ := ih.2.mp h
              refine ⟨[], segment ++ '/' :: a, by simp, List.not_mem_nil, .cons hne hslash ha⟩
          · rintro ⟨segment, a, heq, hslash, ha⟩
            cases segment with
            | cons d segment =>
                obtain ⟨rfl, -⟩ := List.cons.inj heq
                exact absurd List.mem_cons_self hslash
            | nil =>
                obtain ⟨-, rfl⟩ := List.cons.inj heq
                cases ha with
                | nil => exact .inl rfl
                | cons hne hslash ha =>
                    exact .inr (ih.2.mpr ⟨_, _, by simp, hne, hslash, ha⟩)
        · rw [directoryTails, if_pos rfl, if_neg Bool.false_ne_true]
          constructor
          · intro h
            cases h
          · rintro ⟨segment, a, heq, hne, hslash, -⟩
            cases segment with
            | nil => exact absurd rfl hne
            | cons d segment =>
                obtain ⟨rfl, -⟩ := List.cons.inj heq
                exact absurd List.mem_cons_self hslash
      · -- one more character of the segment
        have hstep : t ∈ directoryTails true s ↔
            ∃ segment a, c :: s = segment ++ '/' :: (a ++ t) ∧ segment ≠ [] ∧ '/' ∉ segment ∧
              DirectoryText a := by
          rw [ih.1]
          constructor
          · rintro ⟨segment, a, rfl, hslash, ha⟩
            refine ⟨c :: segment, a, rfl, List.cons_ne_nil _ _, ?_, ha⟩
            intro hmem
            rcases List.mem_cons.mp hmem with heq | hmem
            · exact hc heq.symm
            · exact hslash hmem
          · rintro ⟨segment, a, heq, hne, hslash, ha⟩
            cases segment with
            | nil => exact absurd rfl hne
            | cons d segment =>
                obtain ⟨-, rfl⟩ := List.cons.inj heq
                exact ⟨segment, a, rfl, fun hmem => hslash (List.mem_cons_of_mem d hmem), ha⟩
        rw [directoryTails, directoryTails, if_neg hc, if_neg hc]
        refine ⟨?_, hstep⟩
        rw [hstep]
        constructor
        · rintro ⟨segment, a, heq, -, hslash, ha⟩
          exact ⟨segment, a, heq, hslash, ha⟩
        · rintro ⟨segment, a, heq, hslash, ha⟩
          refine ⟨segment, a, heq, ?_, hslash, ha⟩
          rintro rfl
          exact hc (List.cons.inj heq).1

theorem mem_cons_directoryTails {s t : List Char} :
    t ∈ s :: directoryTails false s ↔ ∃ a, s = a ++ t ∧ DirectoryText a := by
  rw [List.mem_cons, mem_directoryTails.2]
  constructor
  · rintro (rfl | ⟨segment, a, rfl, hne, hslash, ha⟩)
    · exact ⟨[], rfl, .nil⟩
    · exact ⟨segment ++ '/' :: a, by simp, .cons hne hslash ha⟩
  · rintro ⟨a, rfl, ha⟩
    cases ha with
    | nil => exact .inl rfl
    | cons hne hslash ha => exact .inr ⟨_, _, by simp, hne, hslash, ha⟩

/-! ## Matching and the language -/

/-- Matching behind fronts of some kind, given the tails that they leave. -/
theorem any_covers_iff {g : Glob} {front : List Char → Prop}
    {tails : List Char → List (List Char)}
    (htails : ∀ s t, t ∈ tails s ↔ ∃ a, s = a ++ t ∧ front a)
    (ih : ∀ s, covers g s = true ↔ ∃ a, Describes g a ∧ (s = a ∨ s = a ++ ['\n']))
    (s : List Char) :
    (tails s).any (covers g) = true ↔
      ∃ text, (∃ a b, text = a ++ b ∧ front a ∧ Describes g b) ∧
        (s = text ∨ s = text ++ ['\n']) := by
  rw [List.any_eq_true]
  constructor
  · rintro ⟨t, ht, hcovers⟩
    obtain ⟨a, rfl, ha⟩ := (htails s t).mp ht
    obtain ⟨b, hb, rfl | rfl⟩ := (ih t).mp hcovers
    · exact ⟨a ++ t, ⟨a, t, rfl, ha, hb⟩, .inl rfl⟩
    · exact ⟨a ++ b, ⟨a, b, rfl, ha, hb⟩, .inr (List.append_assoc a b _).symm⟩
  · rintro ⟨_, ⟨a, b, rfl, ha, hb⟩, rfl | rfl⟩
    · exact ⟨b, (htails _ b).mpr ⟨a, rfl, ha⟩, (ih b).mpr ⟨b, hb, .inl rfl⟩⟩
    · exact ⟨b ++ ['\n'], (htails _ _).mpr ⟨a, List.append_assoc a b _, ha⟩,
        (ih _).mpr ⟨b, hb, .inr rfl⟩⟩

/-- A glob covers the texts that it describes, and these with a line feed behind them. -/
theorem covers_iff {g : Glob} {s : List Char} :
    covers g s = true ↔ ∃ a, Describes g a ∧ (s = a ∨ s = a ++ ['\n']) := by
  induction g generalizing s with
  | nil => simp [covers, Describes]
  | cons piece g ih =>
      cases piece with
      | one k =>
          cases s with
          | nil =>
              constructor
              · intro h
                cases h
              · rintro ⟨a, ⟨c, rest, rfl, -⟩, h | h⟩ <;> cases h
          | cons c s =>
              rw [covers, Bool.and_eq_true, ih]
              constructor
              · rintro ⟨hc, a, ha, rfl | rfl⟩
                · exact ⟨c :: s, ⟨c, s, rfl, hc, ha⟩, .inl rfl⟩
                · exact ⟨c :: a, ⟨c, a, rfl, hc, ha⟩, .inr rfl⟩
              · rintro ⟨a, ⟨d, rest, rfl, hd, hrest⟩, h | h⟩
                · obtain ⟨rfl, rfl⟩ := List.cons.inj h
                  exact ⟨hd, s, hrest, .inl rfl⟩
                · obtain ⟨rfl, rfl⟩ := List.cons.inj h
                  exact ⟨hd, rest, hrest, .inr rfl⟩
      | run k => exact any_covers_iff (fun _ _ => mem_runTails) (fun _ => ih) s
      | directories => exact any_covers_iff (fun _ _ => mem_cons_directoryTails) (fun _ => ih) s

/-- Two globs in a row describe what falls into a part for each. -/
theorem describes_append {g h : Glob} {s : List Char} :
    Describes (g ++ h) s ↔ ∃ a b, s = a ++ b ∧ Describes g a ∧ Describes h b := by
  induction g generalizing s with
  | nil =>
      constructor
      · intro hs
        exact ⟨[], s, rfl, rfl, hs⟩
      · rintro ⟨a, b, rfl, rfl, hb⟩
        exact hb
  | cons piece g ih =>
      -- a front of any kind goes to the first part
      have hfront : ∀ front : List Char → Prop,
          (∃ a rest, s = a ++ rest ∧ front a ∧ Describes (g ++ h) rest) ↔
            ∃ a b, s = a ++ b ∧ (∃ x y, a = x ++ y ∧ front x ∧ Describes g y) ∧ Describes h b := by
        intro front
        constructor
        · rintro ⟨x, rest, rfl, hx, hrest⟩
          obtain ⟨y, b, rfl, hy, hb⟩ := ih.mp hrest
          exact ⟨x ++ y, b, (List.append_assoc x y b).symm, ⟨x, y, rfl, hx, hy⟩, hb⟩
        · rintro ⟨_, b, rfl, ⟨x, y, rfl, hx, hy⟩, hb⟩
          exact ⟨x, y ++ b, List.append_assoc x y b, hx, ih.mpr ⟨y, b, rfl, hy, hb⟩⟩
      cases piece with
      | one k =>
          constructor
          · rintro ⟨c, rest, rfl, hc, hrest⟩
            obtain ⟨a, b, rfl, ha, hb⟩ := ih.mp hrest
            exact ⟨c :: a, b, rfl, ⟨c, a, rfl, hc, ha⟩, hb⟩
          · rintro ⟨_, b, rfl, ⟨c, a, rfl, hc, ha⟩, hb⟩
            exact ⟨c, a ++ b, rfl, hc, ih.mpr ⟨a, b, rfl, ha, hb⟩⟩
      | run k => exact hfront fun a => ∀ c ∈ a, k.has c = true
      | directories => exact hfront DirectoryText

end FrontendAudit.Glob
