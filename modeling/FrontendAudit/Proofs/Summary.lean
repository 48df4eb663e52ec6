import FrontendAudit.Summary
import Mathlib.Algebra.BigOperators.Group.List.Basic
import Mathlib.Algebra.Ring.Int.Defs
import Mathlib.Data.Finset.Card

/-!
# Which findings are issues

A finding becomes an issue just when no finding before it has the same key (`mem_dedupe_iff`). Every
key has such a finding (`exists_first`), so that what is said about issues of some severity can be
said about the findings: a key counts as high when the first finding with it is high. No two issues
have the same key, so that there are as many issues as there are keys (`length_dedupe`).
-/

namespace FrontendAudit

variable {seen : List Finding.Key} {fs : List Finding} {f : Finding}

/-- What is kept after some keys were seen: the first finding of each other key. -/
theorem mem_dedupeAfter_iff :
    f ∈ dedupeAfter seen fs ↔
      f.key ∉ seen ∧ ∃ before after, fs = before ++ f :: after ∧ ∀ g ∈ before, g.key ≠ f.key := by
  induction fs generalizing seen with
  | nil => simp [dedupeAfter]
  | cons g fs ih =>
      -- a finding stands first behind another when its key is different
      have hcons : (∃ before after, g :: fs = before ++ f :: after ∧ ∀ h ∈ before, h.key ≠ f.key) ↔
          g = f ∨ (g.key ≠ f.key ∧
            ∃ before after, fs = before ++ f :: after ∧ ∀ h ∈ before, h.key ≠ f.key) := by
        constructor
        · rintro ⟨before, after, heq, hbefore⟩
          cases before with
          | nil => exact .inl (List.cons.inj heq).1
          | cons h before =>
              obtain ⟨rfl, rfl⟩ := List.cons.inj heq
              exact .inr ⟨hbefore g List.mem_cons_self, before, after, rfl,
                fun h hh => hbefore h (List.mem_cons_of_mem g hh)⟩
        · rintro (rfl | ⟨hne, before, after, rfl, hbefore⟩)
          · exact ⟨[], fs, rfl, fun _ h => by cases h⟩
          · refine ⟨g :: before, after, rfl, ?_⟩
            intro h hh
            rcases List.mem_cons.mp hh with rfl | hh
            · exact hne
            · exact hbefore h hh
      rw [hcons, dedupeAfter]
      by_cases hseen : g.key ∈ seen
      · rw [if_pos hseen, ih]
        constructor
        · rintro ⟨hf, hrest⟩
          refine ⟨hf, .inr ⟨?_, hrest⟩⟩
          intro heq
          exact hf (heq ▸ hseen)
        · rintro ⟨hf, rfl | ⟨-, hrest⟩⟩
          · exact absurd hseen hf
          · exact ⟨hf, hrest⟩
      · rw [if_neg hseen, List.mem_cons, ih, List.mem_cons, not_or]
        constructor
        · rintro (rfl | ⟨⟨hne, hf⟩, hrest⟩)
          · exact ⟨hseen, .inl rfl⟩
          · exact ⟨hf, .inr ⟨fun heq => hne heq.symm, hrest⟩⟩
        · rintro ⟨hf, rfl | ⟨hne, hrest⟩⟩
          · exact .inl rfl
          · exact .inr ⟨⟨fun heq => hne heq.symm, hf⟩, hrest⟩

/-- The issues are the first findings of their keys. -/
theorem mem_dedupe_iff :
    f ∈ dedupe fs ↔ ∃ before after, fs = before ++ f :: after ∧ ∀ g ∈ before, g.key ≠ f.key := by
  rw [dedupe, mem_dedupeAfter_iff]
  exact and_iff_right List.not_mem_nil

/-- Up to any finding there is a first one with its key. -/
theorem exists_first (before : List Finding) (f : Finding) :
    ∃ front g back, before ++ [f] = front ++ g :: back ∧ g.key = f.key ∧
      ∀ h ∈ front, h.key ≠ f.key := by
  induction before with
  | nil => exact ⟨[], f, [], rfl, rfl, fun _ h => by cases h⟩
  | cons h before ih =>
      by_cases hkey : h.key = f.key
      · exact ⟨[], h, before ++ [f], rfl, hkey, fun _ h => by cases h⟩
      · obtain ⟨front, g, back, heq, hg, hfront⟩ := ih
        refine ⟨h :: front, g, back, by rw [List.cons_append, heq]; rfl, hg, ?_⟩
        intro i hi
        rcases List.mem_cons.mp hi with rfl | hi
        · exact hkey
        · exact hfront i hi

namespace Counts

theorem one_le_high_iff (issues : List Finding) :
    1 ≤ (ofFindings issues).high ↔ ∃ f ∈ issues, f.severity = .high := by
  show (1 : Int) ≤ (issues.countP (·.severity = .high) : Nat) ↔ _
  rw [show (1 : Int) ≤ (issues.countP (·.severity = .high) : Nat) ↔
    0 < issues.countP (·.severity = .high) by omega, List.countP_pos_iff]
  simp only [decide_eq_true_eq]

end Counts

/-- A result has a high issue just when some high finding has none before it with its key and a
lower severity. -/
theorem one_le_high_summarize_iff (now : String) (fs : List Finding) :
    1 ≤ (summarize now fs).counts.high ↔
      ∃ before f after, fs = before ++ f :: after ∧ f.severity = .high ∧
        ∀ g ∈ before, g.key = f.key → g.severity = .high := by
  show 1 ≤ (Counts.ofFindings (dedupe fs)).high ↔ _
  rw [Counts.one_le_high_iff]
  constructor
  · rintro ⟨f, hmem, hhigh⟩
    obtain ⟨before, after, rfl, hbefore⟩ := mem_dedupe_iff.mp hmem
    exact ⟨before, f, after, rfl, hhigh, fun g hg hkey => absurd hkey (hbefore g hg)⟩
  · rintro ⟨before, f, after, rfl, hhigh, hbefore⟩
    -- the first finding with the key is the one in question or a high one before it
    obtain ⟨front, g, back, heq, hkey, hfront⟩ := exists_first before f
    refine ⟨g, mem_dedupe_iff.mpr ⟨front, back ++ after, ?_, fun h hh => hkey ▸ hfront h hh⟩, ?_⟩
    · rw [show before ++ f :: after = (before ++ [f]) ++ after by simp, heq]
      simp
    · have hmem : g ∈ before ++ [f] := by
        rw [heq]
        exact List.mem_append_right _ List.mem_cons_self
      rcases List.mem_append.mp hmem with hg | hg
      · exact hbefore g hg hkey
      · rw [List.mem_singleton.mp hg]
        exact hhigh

/-! ## How many issues there are -/

/-- What is kept after some keys were seen has no key twice. -/
theorem nodup_keys_dedupeAfter (seen : List Finding.Key) (fs : List Finding) :
    ((dedupeAfter seen fs).map Finding.key).Nodup := by
  induction fs generalizing seen with
  | nil => exact List.nodup_nil
  | cons f fs ih =>
      rw [dedupeAfter]
      by_cases hseen : f.key ∈ seen
      · rw [if_pos hseen]
        exact ih seen
      · rw [if_neg hseen, List.map_cons, List.nodup_cons]
        refine ⟨?_, ih (f.key :: seen)⟩
        intro hmem
        obtain ⟨g, hg, hkey⟩ := List.mem_map.mp hmem
        exact (mem_dedupeAfter_iff.mp hg).1 (hkey ▸ List.mem_cons_self)

/-- The keys of the issues are those of the findings. -/
theorem toFinset_keys_dedupe (fs : List Finding) :
    ((dedupe fs).map Finding.key).toFinset = (fs.map Finding.key).toFinset := by
  ext key
  simp only [List.mem_toFinset, List.mem_map]
  constructor
  · rintro ⟨f, hf, rfl⟩
    obtain ⟨before, after, rfl, -⟩ := mem_dedupe_iff.mp hf
    exact ⟨f, List.mem_append_right _ List.mem_cons_self, rfl⟩
  · rintro ⟨f, hf, rfl⟩
    obtain ⟨before, after, rfl⟩ := List.append_of_mem hf
    obtain ⟨front, g, back, heq, hkey, hfront⟩ := exists_first before f
    refine ⟨g, mem_dedupe_iff.mpr ⟨front, back ++ after, ?_, fun h hh => hkey ▸ hfront h hh⟩, hkey⟩
    rw [show before ++ f :: after = (before ++ [f]) ++ after by simp, heq]
    simp

/-- There are as many issues as there are different keys. -/
theorem length_dedupe (fs : List Finding) :
    (dedupe fs).length = (fs.map Finding.key).toFinset.card := by
  have hnodup : ((dedupe fs).map Finding.key).Nodup := nodup_keys_dedupeAfter [] fs
  rw [← toFinset_keys_dedupe, List.toFinset_card_of_nodup hnodup, List.length_map]

namespace Counts

/-- The counts of the severities come to the number of findings. -/
theorem total_ofFindings (fs : List Finding) : (ofFindings fs).total = fs.length := by
  induction fs with
  | nil => rfl
  | cons f fs ih =>
      simp only [ofFindings, List.countP_cons, List.length_cons] at ih ⊢
      cases f.severity <;> simp <;> omega

end Counts

/-- The counts of all categories together are the sums of the columns. -/
theorem mergeCounts_eq (results : Results) : mergeCounts results =
    { high := (results.map (·.2.counts.high)).sum
      medium := (results.map (·.2.counts.medium)).sum
      low := (results.map (·.2.counts.low)).sum
      total := (results.map (·.2.counts.total)).sum } := by
  have hfrom : ∀ start : Counts, results.foldl (fun total r => total.add r.2.counts) start =
      { high := start.high + (results.map (·.2.counts.high)).sum
        medium := start.medium + (results.map (·.2.counts.medium)).sum
        low := start.low + (results.map (·.2.counts.low)).sum
        total := start.total + (results.map (·.2.counts.total)).sum } := by
    induction results with
    | nil => simp
    | cons r results ih =>
        intro start
        rw [List.foldl_cons, ih]
        simp [Counts.add, Int.add_assoc]
  rw [mergeCounts, hfrom]
  simp

end FrontendAudit
