import FrontendAudit.Text.Lines

/-!
# Bounded snippets

Code that is quoted in a finding is bounded: a text of more than two hundred characters keeps its
first 199 and a note that it was cut. A cut text is itself longer than the bound, and cutting it
again leaves it as it is (`truncate_truncate`).
-/

namespace FrontendAudit.Snippet

open Text (splitOn joinWith)

/-- The length up to which a text is kept whole. -/
def limit : Nat := 200

/-- What marks a text that was cut. -/
def cutMark : List Char := "... (truncated)".toList

/-- The text, cut if it is longer than the limit. -/
def truncate (s : List Char) : List Char :=
  if s.length ≤ limit then s else s.take (limit - 1) ++ cutMark

/-- The text, each of its lines cut if it is longer than the limit. -/
def truncateLines (s : List Char) : List Char :=
  joinWith ['\n'] ((splitOn '\n' s).map truncate)

/-- A bounded text. -/
def bounded (s : String) : String := String.ofList (truncate s.toList)

/-- A text whose lines are bounded. -/
def boundedLines (s : String) : String := String.ofList (truncateLines s.toList)

theorem length_cutMark : cutMark.length = 15 := by decide

theorem length_truncate_le (s : List Char) : (truncate s).length ≤ 214 := by
  unfold truncate limit
  split
  · omega
  · rw [List.length_append, length_cutMark, List.length_take]; omega

/-- Cutting twice is cutting once. -/
theorem truncate_truncate (s : List Char) : truncate (truncate s) = truncate s := by
  by_cases h : s.length ≤ limit
  · simp [truncate, h]
  · have hl : (s.take (limit - 1)).length = limit - 1 := by
      rw [List.length_take]; unfold limit at h ⊢; omega
    have ht : truncate s = s.take (limit - 1) ++ cutMark := by simp [truncate, h]
    have hlong : ¬ (s.take (limit - 1) ++ cutMark).length ≤ limit := by
      rw [List.length_append, hl, length_cutMark]; decide
    rw [ht, truncate, if_neg hlong, List.take_append_of_le_length (by omega), List.take_take,
      Nat.min_self]

end FrontendAudit.Snippet
