import FrontendAudit.Source.Heading
import Mathlib.Data.List.Induction

/-!
# Headings line by line

The headings of a text are those of its first lines and then those of the last line, and every
heading stands on a line of the text (`headings_concat`, `index_lt_of_mem_headings`). So the
headings on the lines before a line are the headings of these lines alone (`levelsBefore_headings`),
lines without headings that are put in front of a text do not matter (`levelsBefore_below`), and
what is computed for each line from the line and the levels before it is built up line by line
(`flatMap_levelsBefore_eq`).
-/

namespace FrontendAudit.Source

variable {lines : List (List Char)} {heading : Heading}

theorem headings_append (above below : List (List Char)) :
    headings (above ++ below) =
      headings above ++ (below.zipIdx above.length).flatMap fun (line, index) =>
        (headingLevels line).map (index, ·) := by
  rw [headings, List.zipIdx_append, List.flatMap_append, Nat.zero_add]
  rfl

theorem headings_concat (above : List (List Char)) (line : List Char) :
    headings (above ++ [line]) = headings above ++ (headingLevels line).map (above.length, ·) := by
  rw [headings_append]
  simp

theorem index_lt_of_mem_headings (h : heading ∈ headings lines) : heading.1 < lines.length := by
  obtain ⟨⟨line, index⟩, hline, hmem⟩ := List.mem_flatMap.mp h
  obtain ⟨level, -, rfl⟩ := List.mem_map.mp hmem
  exact List.snd_lt_of_mem_zipIdx hline

/-- Headings stand in the order of their lines. -/
theorem pairwise_headings (lines : List (List Char)) : (headings lines).Pairwise (·.1 ≤ ·.1) := by
  induction lines using List.reverseRecOn with
  | nil => exact List.Pairwise.nil
  | append_singleton above line ih =>
      have hline : (headingLevels line).Pairwise fun _ _ => above.length ≤ above.length :=
        List.pairwise_of_forall fun _ _ => Nat.le_refl _
      rw [headings_concat, List.pairwise_append]
      refine ⟨ih, List.pairwise_map.mpr hline, ?_⟩
      intro heading hheading last hlast
      obtain ⟨level, -, rfl⟩ := List.mem_map.mp hlast
      exact Nat.le_of_lt (index_lt_of_mem_headings hheading)

/-- The headings on the lines before a line are the headings of those lines. -/
theorem levelsBefore_headings (above below : List (List Char)) :
    levelsBefore (headings (above ++ below)) above.length = (headings above).map (·.2) := by
  have hbefore : (headings above).filter (·.1 < above.length) = headings above :=
    List.filter_eq_self.mpr fun heading h => decide_eq_true (index_lt_of_mem_headings h)
  have hbehind : ((below.zipIdx above.length).flatMap fun (line, index) =>
      (headingLevels line).map (index, ·)).filter (·.1 < above.length) = [] := by
    rw [List.filter_eq_nil_iff]
    intro heading h
    obtain ⟨⟨line, index⟩, hline, hmem⟩ := List.mem_flatMap.mp h
    obtain ⟨level, -, rfl⟩ := List.mem_map.mp hmem
    have := List.le_snd_of_mem_zipIdx hline
    simpa using this
  rw [levelsBefore, headings_append, List.filter_append, hbefore, hbehind, List.append_nil]

/-- Below lines without headings the headings of a text are the same, on lines further down. -/
theorem headings_below {above : List (List Char)} (habove : ∀ line ∈ above, headingLevels line = [])
    (lines : List (List Char)) :
    headings (above ++ lines) = (headings lines).map fun heading =>
      (above.length + heading.1, heading.2) := by
  have hnone : headings above = [] := by
    rw [headings, List.flatMap_eq_nil_iff]
    rintro ⟨line, index⟩ hline
    exact List.map_eq_nil_iff.mpr (habove line (List.fst_mem_of_mem_zipIdx hline))
  rw [headings_append, hnone, List.nil_append, List.zipIdx_eq_map_add, List.flatMap_map, headings,
    List.map_flatMap]
  simp only [List.map_map]
  rfl

/-- So a line has the same headings before it there. -/
theorem levelsBefore_below {above : List (List Char)}
    (habove : ∀ line ∈ above, headingLevels line = []) (lines : List (List Char)) (index : Nat) :
    levelsBefore (headings (above ++ lines)) (above.length + index) =
      levelsBefore (headings lines) index := by
  rw [headings_below habove, levelsBefore, levelsBefore, List.filter_map, List.map_map]
  simp only [Function.comp_def, Nat.add_lt_add_iff_left]

/-- What is found on each line, given the levels of the headings before it, is found in one pass
over the lines. -/
theorem flatMap_levelsBefore_eq {β : Type} (onLine : List Nat → List Char → Nat → List β)
    (upTo : List (List Char) → List β) (hnil : upTo [] = [])
    (hconcat : ∀ above line, upTo (above ++ [line]) =
      upTo above ++ onLine ((headings above).map (·.2)) line above.length)
    (lines : List (List Char)) :
    (lines.zipIdx.flatMap fun (line, index) =>
      onLine (levelsBefore (headings lines) index) line index) = upTo lines := by
  -- the lines of the text stay in view while the pass goes over the first of them
  have hpass : ∀ above below, lines = above ++ below →
      (above.zipIdx.flatMap fun (line, index) =>
        onLine (levelsBefore (headings lines) index) line index) = upTo above := by
    intro above
    induction above using List.reverseRecOn with
    | nil => exact fun _ _ => hnil.symm
    | append_singleton above line ih =>
        intro below hlines
        have hlines' : lines = above ++ (line :: below) := by simp [hlines]
        rw [List.zipIdx_append, List.flatMap_append, ih (line :: below) hlines', hconcat,
          ← levelsBefore_headings above (line :: below), ← hlines']
        simp
  exact hpass lines [] (List.append_nil lines).symm

end FrontendAudit.Source
