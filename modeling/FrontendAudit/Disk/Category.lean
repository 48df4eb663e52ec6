import FrontendAudit.Config.Basic
import FrontendAudit.Disk.Walk
import FrontendAudit.Text.Blank
import FrontendAudit.Text.Lines

/-!
# Files of a category

A category of audits looks at some kinds of files. An ignore file in the project excludes more: each
of its lines becomes globs that match at any depth, a plain name as a file and as a directory. Blank
lines, comments and lines that would include something again do not count.
-/

namespace FrontendAudit

namespace Disk

/-- The name of the ignore file. -/
def ignoreFileName : String := ".ui-code-audit-ignore"

/-- The characters that make an entry a glob. -/
def globChars : List Char := ['*', '?', '[', '\x7b']

/-- The globs that an entry of an ignore file stands for. -/
def entryGlobs (entry : List Char) : List (List Char) :=
  let anywhere := ['*', '*', '/']
  if entry.any globChars.contains then
    [if anywhere.isPrefixOf entry then entry else anywhere ++ entry]
  else if entry.getLast? = some '/' then [anywhere ++ entry ++ ['*', '*']]
  else [anywhere ++ entry, anywhere ++ entry ++ ['/', '*', '*']]

/-- The excluding patterns of a line of an ignore file. -/
def ignoreLine (line : List Char) : List String :=
  match Text.strip line with
  | [] => []
  | '#' :: _ => []
  | '!' :: _ => []
  | entry =>
    (entryGlobs (entry.dropWhile (· = '/'))).map fun glob => String.ofList ('!' :: glob)

/-- The excluding patterns of an ignore file. -/
def ignorePatterns (content : List Char) : List String :=
  (Text.breakLines content).flatMap ignoreLine

/-- The excluding patterns of a project's ignore file, if it has one. -/
def projectIgnorePatterns (project : Tree) : List String :=
  match project.file? [ignoreFileName] with
  | some data => ignorePatterns data.readTolerant
  | none => []

end Disk

/-- A category of audits. -/
inductive Category where
  | accessibility
  | eslint
  | stylelint
  | security
  | performance
  deriving DecidableEq, Repr, Inhabited

namespace Category

/-- All categories. -/
def all : List Category := [accessibility, eslint, stylelint, security, performance]

/-- The name of a category. -/
def name : Category → String
  | accessibility => "accessibility"
  | eslint => "eslint"
  | stylelint => "stylelint"
  | security => "security"
  | performance => "performance"

/-- Categories have different names. -/
theorem name_injective : Function.Injective name := by
  intro a b
  cases a <;> cases b <;> decide

/-- The category of a name. -/
def ofName? (s : String) : Option Category := all.find? (·.name = s)

/-- The pattern lists of the files that a category looks at. -/
def patterns (c : Config) : Category → List (List String)
  | accessibility => [c.scripts, c.pages, c.styles]
  | eslint => [c.scripts]
  | stylelint => [c.styles]
  | security => []
  | performance => [c.scripts, c.assets]

/-- The pattern lists with what the ignore file excludes. -/
def patternGroups (c : Config) (project : Disk.Tree) (category : Category) :
    List (List String) :=
  let ignored := if c.ignoreFile then Disk.projectIgnorePatterns project else []
  (category.patterns c).map (· ++ ignored)

/-- The files that a category looks at, as sorted relative paths, each once. -/
def files (c : Config) (project : Disk.Tree) (category : Category) :
    Except Glob.GlobFault (List String) := do
  let groups ← (category.patternGroups c project).mapM (Disk.filesMatching · (some project))
  return Disk.sortPaths groups.flatten.eraseDups

end Category

end FrontendAudit
