import FrontendAudit.Rule.Accessibility.Check
import FrontendAudit.Rule.Accessibility.Markup
import FrontendAudit.Rule.Registry
import FrontendAudit.Source.File

/-!
# Accessibility detectors

Each detector reports what one check finds on one line. All but the two that follow the outline of
the headings look at nothing but the line; those two also know the headings of the earlier lines.
-/

namespace FrontendAudit.Accessibility

/-- A source with what the detectors know about it beyond its lines. -/
structure Source extends SourceFile where
  components : List String
  headings : List Source.Heading

/-- A source whose headings are found. -/
def Source.of (file : SourceFile) (components : List String) : Source :=
  { file with components, headings := FrontendAudit.Source.headings file.lines }

/-- What a check reports about a line. -/
def Source.report (source : Source) (check : Check) (index : Nat)
    (message recommendation : String) : Finding :=
  source.findingAt index check.name check.severity message recommendation (some check.criterion)

/-- Whether a component that takes care of accessibility is used in a line. -/
def usesComponent (line : List Char) (components : List String) : Bool :=
  components.any fun name => (componentUse name).occursIn line

/-- The tags of images in a line, none if an accessible component is used in it. -/
def imageTags (line : List Char) (source : Source) : List (List Char) :=
  if usesComponent line source.components then []
  else (imageTag.allMatches line).map (·.text)

/-- A detector of this family. -/
abbrev LineDetector := Rule.Detector Source Finding

def detectMissingAlt : LineDetector := fun line index source =>
  (imageTags line source).filterMap fun tag =>
    if altAttribute.occursIn tag || hasAltEquivalent tag then none
    else some (source.report .missingAlt index "Image missing alt attribute"
      "Add descriptive alt text, or alt=\"\" if the image is purely decorative")

def detectEmptyAlt : LineDetector := fun line index source =>
  (imageTags line source).filterMap fun tag =>
    match altValue.search? tag with
    | some m =>
      if Text.isBlankText (m.group 2) && !hasAltEquivalent tag then
        some (source.report .emptyAlt index "Image has empty alt text"
          "Empty alt is only correct for decorative images; describe meaningful images")
      else none
    | none => none

def detectGenericAlt : LineDetector := fun line index source =>
  (imageTags line source).filterMap fun tag =>
    match altValue.search? tag with
    | some m =>
      let text := Text.strip (m.group 2)
      if isGenericAlt text then
        some (source.report .genericAlt index
          ("Image alt text is generic: \"" ++ String.ofList text ++ "\"")
          "Describe what the image shows or what it is for")
      else none
    | none => none

/-- The levels among headings that come without the next higher level before them. -/
def skippedLevels (seen : List Nat) : List Nat → List Nat
  | [] => []
  | level :: levels =>
    let later := skippedLevels (level :: seen) levels
    if 1 < level && !seen.contains (level - 1) then level :: later else later

def detectSkippedHeading : LineDetector := fun line index source =>
  (skippedLevels (FrontendAudit.Source.levelsBefore source.headings index)
      (FrontendAudit.Source.headingLevels line)).map fun level =>
    source.report .skippedHeading index
      ("Heading level " ++ toString level ++ " used without previous level "
        ++ toString (level - 1))
      "Keep heading levels sequential so the outline stays navigable"

def detectMultipleH1 : LineDetector := fun line index source =>
  let before := (FrontendAudit.Source.levelsBefore source.headings index).count 1
  let here := (FrontendAudit.Source.headingLevels line).count 1
  List.replicate (if before = 0 then here - 1 else here)
    (source.report .multipleH1 index "Multiple <h1> elements in one file"
      "Use a single <h1> per page and <h2>-<h6> for sections")

def detectEmptyHeading : LineDetector := fun line index source =>
  (headingElement.allMatches line).filterMap fun m =>
    if Text.isBlankText (m.group 2) then
      some (source.report .emptyHeading index
        ("Empty <h" ++ String.ofList (m.group 1) ++ "> heading")
        "Give the heading text content or remove it")
    else none

def detectMissingFormLabel : LineDetector := fun line index source =>
  (formControl.allMatches line).filterMap fun m =>
    if labelHook.occursIn m.text || hiddenInput.occursIn m.text then none
    else some (source.report .missingFormLabel index "Form control missing proper labeling"
      "Associate a <label for=...> via id, or add aria-label / aria-labelledby")

/-- A single finding if a condition holds of the line. -/
def reportIf (source : Source) (holds : Bool) (check : Check) (index : Nat)
    (message recommendation : String) : List Finding :=
  if holds then [source.report check index message recommendation] else []

def detectColorContrast : LineDetector := fun line index source =>
  reportIf source (colorLiteral.occursIn line) .colorContrast index
    "Color usage detected - verify contrast ratios meet WCAG guidelines"
    "Use tools like axe-core or Lighthouse to check actual contrast ratios"

def detectKeyboardNavigation : LineDetector := fun line index source =>
  reportIf source
    (clickHandler.occursIn line && !keyboardHandler.occursIn line
      && !nativeInteractive.occursIn line)
    .keyboardNavigation index "Click handler without keyboard support"
    "Add keyboard event handlers or use semantic HTML elements"

def detectEmptyAria : LineDetector := fun line index source =>
  (emptyAriaAttribute.allMatches line).map fun m =>
    source.report .emptyAria index
      ("Empty ARIA attribute detected: " ++ String.ofList (m.group 1))
      "Provide a meaningful value or remove the attribute"

/-- The ARIA attributes that a tag has more than once, in order of first appearance. -/
def repeatedAria (tag : List Char) : List (List Char) :=
  let names := (ariaAttribute.allMatches tag).map (·.group 1)
  (names.filter fun name => 1 < names.count name).eraseDups

def detectDuplicateAria : LineDetector := fun line index source =>
  (openTag.allMatches line).flatMap fun m =>
    (repeatedAria m.text).map fun name =>
      source.report .duplicateAria index
        ("Duplicate " ++ String.ofList name ++ " attribute on one element")
        "Keep a single instance of each ARIA attribute"

def detectTabOrderFocus : LineDetector := fun line index source =>
  reportIf source
    (clickableContainer.occursIn line && clickHandler.occursIn line && !tabIndex.occursIn line)
    .tabOrderFocus index "Interactive element may be missing tabindex or focus management"
    "Use a <button>, or add tabIndex=\x7b0\x7d and a role to the clickable element"

def detectFocusManagement : LineDetector := fun line index source =>
  reportIf source (dialogOpen.occursIn line && !focusHint.occursIn line) .focusManagement index
    "Modal/dialog may be missing focus trap or focus management"
    "Trap focus inside the dialog and restore it to the trigger on close"

/-- All detectors of this family. -/
def detectors : Rule.Registry Source Finding where
  entries :=
    [(Check.missingAlt.name, detectMissingAlt),
     (Check.emptyAlt.name, detectEmptyAlt),
     (Check.genericAlt.name, detectGenericAlt),
     (Check.skippedHeading.name, detectSkippedHeading),
     (Check.multipleH1.name, detectMultipleH1),
     (Check.emptyHeading.name, detectEmptyHeading),
     (Check.missingFormLabel.name, detectMissingFormLabel),
     (Check.colorContrast.name, detectColorContrast),
     (Check.keyboardNavigation.name, detectKeyboardNavigation),
     (Check.emptyAria.name, detectEmptyAria),
     (Check.duplicateAria.name, detectDuplicateAria),
     (Check.tabOrderFocus.name, detectTabOrderFocus),
     (Check.focusManagement.name, detectFocusManagement)]
  nodup := by decide

/-- What all detectors find in a file, every finding accepted. -/
def scan (path : String) (content : List Char) (components : List String) :
    Checked (List Finding) :=
  let source := Source.of (.ofContent path content) components
  Finding.acceptAll (detectors.run source source.lines)

end FrontendAudit.Accessibility
