import FrontendAudit.Disk.Tree
import FrontendAudit.Glob.Selection

/-!
# Walking a project

The files of a selection are found by a walk that enters neither the directories that are never
entered nor those that the selection prunes. The paths found are sorted by code points.
-/

namespace FrontendAudit.Disk

/-- The directories that are never entered. -/
def skippedNames : List String := [".git", "node_modules"]

/-- A path below another, both relative. -/
def pathBelow (directory name : String) : String :=
  if directory.isEmpty then name else directory ++ "/" ++ name

mutual

/-- The selected files among the entries of a directory, which has the given relative path. -/
def selectedIn (s : Selection) (directory : String) : List (String × Tree) → List String
  | [] => []
  | (name, t) :: es => selectedAt s (pathBelow directory name) name t ++ selectedIn s directory es

/-- The selected files at a relative path: the file itself, or those of the directory unless it is
skipped or pruned. -/
def selectedAt (s : Selection) (path name : String) : Tree → List String
  | .file _ => if s.selects path then [path] else []
  | .dir entries =>
    if skippedNames.contains name || s.prunes path then [] else selectedIn s path entries

end

/-- Sorted by code points. -/
def sortPaths (paths : List String) : List String :=
  paths.mergeSort fun a b => decide (a ≤ b)

/-- The selected files of a project, as sorted relative paths; none if it is no directory. -/
def selectedFiles (s : Selection) : Tree → List String
  | .file _ => []
  | .dir entries => sortPaths (selectedIn s "" entries)

/-- The files that patterns select at a place. Where there is no directory the patterns are not even
looked at. -/
def filesMatching (patterns : List String) : Option Tree → Except Glob.GlobFault (List String)
  | some (.dir entries) => (Selection.ofPatterns patterns).map (selectedFiles · (.dir entries))
  | _ => .ok []

end FrontendAudit.Disk
