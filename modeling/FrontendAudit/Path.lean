import FrontendAudit.Text.Lines

/-!
# Paths

A path is absolute or relative and has named parts; empty parts and single points do not count, a
double point does. A path may begin with exactly two slashes, which are kept apart from one. Only
`resolve` removes double points, and it needs to know the current directory.
-/

namespace FrontendAudit

/-- Where a path begins. -/
inductive Anchor where
  | here
  | root
  | doubleRoot
  deriving DecidableEq, Repr, Inhabited

/-- How a path begins. -/
def Anchor.text : Anchor → String
  | .here => ""
  | .root => "/"
  | .doubleRoot => "//"

/-- A path. -/
structure Path where
  anchor : Anchor
  parts : List String
  deriving DecidableEq, Repr, Inhabited

namespace Path

/-- The parts of a text between slashes that count. -/
def partsOf (s : String) : List String :=
  ((Text.splitOn '/' s.toList).map String.ofList).filter fun part => part != "" && part != "."

/-- How a text begins. -/
def anchorOf (s : String) : Anchor :=
  match (s.toList.takeWhile (· = '/')).length with
  | 0 => .here
  | 2 => .doubleRoot
  | _ => .root

/-- The path of a text. -/
def ofString (s : String) : Path := ⟨anchorOf s, partsOf s⟩

/-- The absolute path of some parts. -/
def absolute (parts : List String) : Path := ⟨.root, parts⟩

/-- The text of a path; a point for the path without parts. -/
def toString (p : Path) : String :=
  match p.anchor, p.parts with
  | .here, [] => "."
  | anchor, parts => anchor.text ++ "/".intercalate parts

/-- A path as seen from another; an absolute path stays itself. -/
def join (base p : Path) : Path :=
  match p.anchor with
  | .here => ⟨base.anchor, base.parts ++ p.parts⟩
  | _ => p

/-- The path below another, by name. -/
def child (p : Path) (name : String) : Path := p.join (ofString name)

/-- The last part. -/
def name (p : Path) : String := p.parts.getLast?.getD ""

/-- The extension with its point; none for a name that begins or ends with its last point. -/
def extension (p : Path) : String :=
  let reversed := p.name.toList.reverse
  let after := (reversed.takeWhile (· ≠ '.')).reverse
  let before := (reversed.dropWhile (· ≠ '.')).drop 1
  if after.isEmpty || before.isEmpty then "" else String.ofList ('.' :: after)

/-- What is left of a path below another. -/
def below? (p root : Path) : Option Path :=
  if p.anchor = root.anchor && root.parts.isPrefixOf p.parts then
    some ⟨.here, p.parts.drop root.parts.length⟩
  else none

/-- A path as findings and reports show it: relative to the project where it lies in the project. -/
def display (p root : Path) : String :=
  ((p.below? root).getD p).toString

/-- Goes up for each double point. -/
def collapse (parts : List String) : List String :=
  parts.foldl (fun done part => if part = ".." then done.dropLast else done ++ [part]) []

/-- The absolute path without double points, seen from a current directory. -/
def resolve (p cwd : Path) : Path :=
  absolute (collapse (cwd.join p).parts)

end Path

end FrontendAudit
