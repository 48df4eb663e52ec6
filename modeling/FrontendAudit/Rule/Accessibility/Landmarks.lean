import FrontendAudit.Finding.Basic
import FrontendAudit.Pattern.Build
import FrontendAudit.Pattern.Search
import FrontendAudit.Rule.Accessibility.Check

/-!
# Landmarks and skip links of a whole project

One layout with a `main` element serves a whole project, so these checks cannot be decided file by
file. Every file gives its signals, the signals of all files are joined, and what no file provides
is reported once for the project.
-/

namespace FrontendAudit.Accessibility

open Pattern

/-- What some file of a project provides. -/
structure Signals where
  landmark : Bool := false
  skipLink : Bool := false
  deriving DecidableEq, Repr, Inhabited

/-- What one or the other provides. -/
def Signals.merge (a b : Signals) : Signals :=
  ⟨a.landmark || b.landmark, a.skipLink || b.skipLink⟩

/-- An element that is a landmark. -/
def landmarkElement : Pattern :=
  seqs [word "<", anyCaseless ["main", "nav", "aside", "header", "footer"], .boundary,
    many (except ">"), word ">"]

/-- A role that makes an element a landmark. -/
def landmarkRole : Pattern :=
  let quoteMark := among "\"'"
  seqs [.boundary, caseless "role", blanks, word "=", blanks, quoteMark,
    anyCaseless ["main", "navigation", "banner", "contentinfo", "complementary"], quoteMark]

/-- A link to a place on the page whose text begins with "skip". -/
def skipAnchor : Pattern :=
  let quoteMark := among "\"'"
  seqs [word "<", caseless "a", .boundary, many (except ">"), .boundary, caseless "href", blanks,
    word "=", blanks, quoteMark, word "#", many1 (ofKinds [.word, .one '-']), quoteMark,
    many (except ">"), word ">", blanks, caseless "skip", .boundary]

/-- What the content of a file provides. -/
def Signals.ofContent (content : List Char) : Signals :=
  { landmark := landmarkElement.occursIn content || landmarkRole.occursIn content
    skipLink := skipAnchor.occursIn content }

/-- The location of findings about a project as a whole. -/
def projectLocation : String := "."

/-- A finding about a project as a whole. -/
def projectFinding (check : Check) (message recommendation : String) : Finding :=
  { kind := check.name
    severity := check.severity
    message
    file := some projectLocation
    recommendation := some recommendation
    wcag := some check.criterion }

/-- What no file of a project provides. -/
def projectFindings (signals : Signals) : List Finding :=
  (if signals.landmark then [] else
    [projectFinding .missingLandmark
      "No landmark roles (<main>, <nav>, <aside>, <header>, <footer>) found in project"
      "Add semantic landmark elements for better accessibility"]) ++
  (if signals.skipLink then [] else
    [projectFinding .missingSkipLink
      "No skip link found (e.g., <a href=\"#main-content\">Skip to main content</a>)"
      "Add a skip link for keyboard users"])

end FrontendAudit.Accessibility
