import FrontendAudit.Pattern.Build
import FrontendAudit.Pattern.Search

/-!
# Regions of asynchronous code

A region begins at a line where an asynchronous function starts, outside any region, and ends at the
first line where an opening brace was seen in it and no more braces are open than at its beginning.
-/

namespace FrontendAudit.Performance

open Pattern

/-- The start of an asynchronous function. -/
def asyncStart : Pattern :=
  .alt (seqs [word "async", many1 blank, word "function"]) (seqs [word "async", blanks, word "("])

/-- How far a region has come: whether it has seen an opening brace, and how many braces are
open. -/
structure Region where
  opened : Bool := false
  depth : Int := 0
  deriving DecidableEq, Repr

/-- The region after one more line. -/
def Region.extend (r : Region) (line : List Char) : Region :=
  { opened := r.opened || line.contains '\x7b'
    depth := r.depth + (line.count '\x7b' : Int) - (line.count '\x7d' : Int) }

/-- Whether the region ends. -/
def Region.closed (r : Region) : Bool :=
  r.opened && r.depth ≤ 0

/-- The indexes, from `index` on, of the lines within regions, where a region may be under way. -/
def regionIndexes (current : Option Region) (index : Nat) : List (List Char) → List Nat
  | [] => []
  | line :: lines =>
    match current with
    | some region =>
      let region := region.extend line
      index :: regionIndexes (if region.closed then none else some region) (index + 1) lines
    | none =>
      if asyncStart.occursIn line then
        let region := ({} : Region).extend line
        index :: regionIndexes (if region.closed then none else some region) (index + 1) lines
      else regionIndexes none (index + 1) lines

/-- The indexes of the lines within asynchronous code. -/
def asyncLines (lines : List (List Char)) : List Nat :=
  regionIndexes none 0 lines

end FrontendAudit.Performance
