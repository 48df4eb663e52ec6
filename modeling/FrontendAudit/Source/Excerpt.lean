import FrontendAudit.Number.Decimal
import FrontendAudit.Snippet
import FrontendAudit.Text.Blank

/-!
# Excerpts around a line

A finding quotes the line it is about and the lines around it. Each quoted line is stripped and
shown behind its number, the line in question with a marker. Blank lines at the edges are left out,
and a run of blank lines shows as one; the line in question itself stays whatever it is.
-/

namespace FrontendAudit.Source

open Text (strip joinWith)

/-- A line with its number, counted from one. -/
abbrev Numbered := Nat × List Char

/-- How many lines are quoted before and after the line in question. -/
def usualRadius : Int := 2

/-- The stripped lines whose numbers differ from `n` by no more than `radius`. -/
def window (lines : List (List Char)) (n : Nat) (radius : Int) : List Numbered :=
  let first := (max 1 ((n : Int) - radius)).toNat
  let last := (min (lines.length : Int) (n + radius)).toNat
  (((lines.drop (first - 1)).take (last + 1 - first)).zipIdx first).map fun (line, i) =>
    (i, strip line)

/-- Whether an edge of the window may leave the line out. -/
def droppable (n : Nat) (line : Numbered) : Bool :=
  line.2.isEmpty && line.1 != n

/-- The window without blank lines at its edges. -/
def trimEdges (n : Nat) (lines : List Numbered) : List Numbered :=
  ((lines.dropWhile (droppable n)).reverse.dropWhile (droppable n)).reverse

/-- Leaves out each blank line that follows a blank line. -/
def collapseBlanks (afterBlank : Bool) : List Numbered → List Numbered
  | [] => []
  | line :: lines =>
    if line.2.isEmpty && afterBlank then collapseBlanks true lines
    else line :: collapseBlanks line.2.isEmpty lines

/-- A quoted line. -/
def renderLine (n : Nat) (line : Numbered) : List Char :=
  let marker := if line.1 = n then ">>>".toList else "   ".toList
  Snippet.truncate (marker ++ ' ' :: (Number.natText line.1 ++ ':' :: ' ' :: line.2))

/-- The lines that are quoted around line `n`. -/
def quotedLines (lines : List (List Char)) (n : Nat) (radius : Int) : List Numbered :=
  collapseBlanks false (trimEdges n (window lines n radius))

/-- What a finding quotes of a source. -/
structure Excerpt where
  code : List Char
  context : List Char
  deriving DecidableEq, Repr

/-- The excerpt around a line, empty when the source has no line of that number. -/
def excerpt (lines : List (List Char)) (n : Int) (radius : Int := usualRadius) : Excerpt :=
  if 1 ≤ n && n ≤ lines.length then
    let n := n.toNat
    { code := Snippet.truncate (strip (lines.getD (n - 1) []))
      context := joinWith ['\n'] ((quotedLines lines n radius).map (renderLine n)) }
  else ⟨[], []⟩

/-- A text, unless it is empty. -/
def asText? (s : List Char) : Option String :=
  if s.isEmpty then none else some (String.ofList s)

end FrontendAudit.Source
