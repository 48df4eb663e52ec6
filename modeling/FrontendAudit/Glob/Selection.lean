import FrontendAudit.Glob.Basic
import FrontendAudit.Glob.Brace
import FrontendAudit.Text.Blank

/-!
# Selections of files

A selection lists patterns that include paths and patterns, marked by `!`, that exclude them. A path
is selected when an included glob matches it and no excluded one does. A directory that an excluded
glob matches with a slash behind it need not be entered.
-/

namespace FrontendAudit

/-- Which paths are included and which of those are excluded. -/
structure Selection where
  includes : List Glob
  excludes : List Glob
  deriving Repr, Inhabited

namespace Selection

/-- The globs that a pattern stands for. -/
def globsOf (pattern : List Char) : Except Glob.GlobFault (List Glob) :=
  (Glob.expandBraces pattern).mapM Glob.parse

/-- Adds a pattern; a blank one adds nothing. -/
def add (s : Selection) (pattern : String) : Except Glob.GlobFault Selection :=
  match Text.strip pattern.toList with
  | [] => .ok s
  | '!' :: rest => do
    let globs ← globsOf (rest.dropWhile (· = '!'))
    return { s with excludes := s.excludes ++ globs }
  | pattern => do
    let globs ← globsOf pattern
    return { s with includes := s.includes ++ globs }

/-- The selection of a list of patterns. -/
def ofPatterns (patterns : List String) : Except Glob.GlobFault Selection :=
  patterns.foldlM add ⟨[], []⟩

/-- Whether a path is selected. -/
def selects (s : Selection) (path : String) : Bool :=
  s.includes.any (Glob.covers · path.toList) && !s.excludes.any (Glob.covers · path.toList)

/-- Whether everything below a directory is excluded. -/
def prunes (s : Selection) (directory : String) : Bool :=
  s.excludes.any (Glob.covers · (directory.toList ++ ['/']))

end Selection

end FrontendAudit
