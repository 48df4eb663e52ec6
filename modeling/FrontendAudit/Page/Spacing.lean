import FrontendAudit.Page.Node
import FrontendAudit.Page.Token

/-!
# Spacing of a page

Text that only lays a page out, between its elements, counts as a single line feed or a single space
(`condense`), and so does a comment without words. Where text is preformatted it stays as it is.
What says something is left alone (`condense_of_not_blank`), and doing it again changes nothing
(`condense_condense`).
-/

namespace FrontendAudit.Page

/-- A text of nothing but spaces as one line feed, if it holds one, or else as one space. -/
def condense (s : List Char) : List Char :=
  if !s.all Token.isSpace then s
  else if s.contains '\n' then ['\n']
  else [' ']

theorem condense_of_not_blank {s : List Char} (h : s.all Token.isSpace = false) :
    condense s = s := by
  simp [condense, h]

theorem condense_condense (s : List Char) : condense (condense s) = condense s := by
  by_cases h : s.all Token.isSpace
  · by_cases n : s.contains '\n'
    · have e : condense s = ['\n'] := by simp only [condense, h, n]; rfl
      rw [e]
      rfl
    · have e : condense s = [' '] := by simp only [condense, h, n]; rfl
      rw [e]
      rfl
  · have e := condense_of_not_blank (Bool.eq_false_iff.2 h)
    rw [e, e]

/-- The elements whose text is preformatted. -/
def preformattedElements : List String := ["pre", "textarea"]

mutual

/-- A node with its spacing condensed, unless it is `preformatted`. -/
def Node.condensed (preformatted : Bool) : Node → Node
  | .text s => .text (if preformatted then s else condense s)
  | .comment s => .comment (if preformatted then s else condense s)
  | .element name attributes children =>
    .element name attributes
      (condensedAll (preformatted || preformattedElements.contains name) children)

/-- Nodes with their spacing condensed. -/
def condensedAll (preformatted : Bool) : List Node → List Node
  | [] => []
  | n :: ns => Node.condensed preformatted n :: condensedAll preformatted ns

end

end FrontendAudit.Page
