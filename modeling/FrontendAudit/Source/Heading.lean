import FrontendAudit.Pattern.Build
import FrontendAudit.Pattern.Search

/-!
# Headings of a source

The opening tags `h1` to `h6` of a source in document order, each with the index of its line and its
level.
-/

namespace FrontendAudit.Source

open Pattern

/-- The digit of a heading, as a remembered stretch. -/
def headingDigit : Pattern := .group 1 (ofKinds [.range '1' '6'])

/-- An opening tag of a heading. -/
def headingOpen : Pattern :=
  seqs [word "<", caseless "h", headingDigit, .boundary, many (except ">"), word ">"]

/-- The level that a heading's digit stands for. -/
def levelOf (m : Match) : Nat :=
  match m.group 1 with
  | [c] => c.toNat - '0'.toNat
  | _ => 0

/-- The levels of the headings that open in a line, from left to right. -/
def headingLevels (line : List Char) : List Nat :=
  (headingOpen.allMatches line).map levelOf

/-- A heading: the index of its line, and its level. -/
abbrev Heading := Nat × Nat

/-- The headings of all lines, in document order. -/
def headings (lines : List (List Char)) : List Heading :=
  lines.zipIdx.flatMap fun (line, index) => (headingLevels line).map (index, ·)

/-- The levels of the headings on earlier lines. -/
def levelsBefore (hs : List Heading) (index : Nat) : List Nat :=
  (hs.filter (·.1 < index)).map (·.2)

end FrontendAudit.Source
