import FrontendAudit.Finding.Basic
import FrontendAudit.Source.Excerpt

/-!
# Source files

A source file has a path and lines. A finding about one of its lines quotes the line and those
around it.
-/

namespace FrontendAudit

/-- The text of a file, as lines. -/
structure SourceFile where
  path : String
  lines : List (List Char)
  deriving Repr

/-- The file of a path with a given content. -/
def SourceFile.ofContent (path : String) (content : List Char) : SourceFile :=
  ⟨path, Text.sourceLines content⟩

/-- A finding about the line of an index, counted from zero. -/
def SourceFile.findingAt (source : SourceFile) (index : Nat) (kind : String) (severity : Severity)
    (message recommendation : String) (wcag : Option String := none) : Finding :=
  let quoted := Source.excerpt source.lines (index + 1)
  { kind, severity, message
    file := some source.path
    line := some (index + 1)
    code := Source.asText? quoted.code
    context := Source.asText? quoted.context
    recommendation := some recommendation
    wcag }

end FrontendAudit
