import FrontendAudit.Finding.Basic
import FrontendAudit.Page.Tree
import FrontendAudit.Rule.Accessibility.Check

/-!
# Checks of a page

A served page has to name its language and have a title, its images need an alternative text unless
they are decoration, and its form controls need a label: an element around them or pointing to them,
or one of the attributes that serve as one.
-/

namespace FrontendAudit.Page

open Accessibility (Check)

/-- A finding about a page. -/
def finding (url : String) (check : Check) (message recommendation : String)
    (code : Option (List Char) := none) : Finding :=
  { kind := check.name
    severity := check.severity
    message
    url := some url
    code := code.map String.ofList
    recommendation := some recommendation
    wcag := some check.criterion }

/-- Whether an attribute is there and not empty. -/
def hasAttribute (n : Node) (key : String) : Bool := !(n.attributeD key).isEmpty

/-- Whether an attribute is there and not blank. -/
def saysAttribute (n : Node) (key : String) : Bool :=
  !Text.isBlankText (n.attributeD key)

/-- The finding that the page does not name its language. -/
def languageFindings (url : String) (elements : List Node) : List Finding :=
  match elements.find? (·.name = "html") with
  | some html => if saysAttribute html "lang" then [] else [missing]
  | none => [missing]
where
  missing := finding url .missingLang "Page is missing a lang attribute on <html>"
    "Declare the page language, e.g. <html lang=\"en\">"

/-- The finding that the page has no title. -/
def titleFindings (url : String) (elements : List Node) : List Finding :=
  match elements.find? (·.name = "title") with
  | some title => if Text.isBlankText title.textContent then [missing] else []
  | none => [missing]
where
  missing := finding url .missingTitle "Page is missing a non-empty <title>"
    "Give every page a descriptive, unique title"

/-- Whether an image needs no more alternative text. -/
def isDescribed (image : Node) : Bool :=
  (image.attribute? "alt").isSome || hasAttribute image "aria-label" ||
    hasAttribute image "aria-labelledby" ||
    ["presentation", "none"].contains ((image.attribute? "role").getD "")

/-- The finding about an image, if there is one. -/
def imageFinding? (url : String) (image : Node) : Option Finding :=
  if isDescribed image then none
  else
    let source := (image.attribute? "src").getD ""
    some (finding url .missingAlt
      (if source.isEmpty then "Image missing alt attribute"
        else "Image missing alt attribute: " ++ source)
      "Add descriptive alt text, or alt=\"\" if the image is purely decorative"
      (some (image.render false)))

/-- The kinds of input that need no label. -/
def unlabelledTypes : List String := ["hidden", "submit", "button", "reset", "image"]

/-- Whether a control needs a label. -/
def needsLabel (control : Node) : Bool :=
  !(control.name = "input" &&
    unlabelledTypes.contains
      (String.ofList (((control.attribute? "type").getD "text").toList.map Char.toLower)))

/-- Whether a control has a label. -/
def hasLabel (elements : List Node) (control : Node) (inLabel : Bool) : Bool :=
  saysAttribute control "aria-label" || hasAttribute control "aria-labelledby" ||
    saysAttribute control "title" || inLabel ||
    (hasAttribute control "id" &&
      elements.any fun e => e.name = "label" && e.attribute? "for" = control.attribute? "id")

/-- The finding about a form control, if there is one. -/
def controlFinding? (url : String) (elements : List Node) (control : Node) (inLabel : Bool) :
    Option Finding :=
  if !needsLabel control || hasLabel elements control inLabel then none
  else
    let shown :=
      if hasAttribute control "name" then control.attributeD "name" else control.attributeD "id"
    let message := "Form control missing label: <" ++ control.name ++ "> " ++ String.ofList shown
    some (finding url .missingFormLabel
      (String.ofList (Text.trimEnd Text.isBlank message.toList))
      "Associate a <label> or add aria-label / aria-labelledby"
      (some (control.render false)))

/-- What is found on a page. -/
def findings (url : String) (content : List Char) : List Finding :=
  let placed := elementsOf false (ofText content)
  let elements := placed.map (·.1)
  let images := elements.filter (·.name = "img")
  let controls := placed.filter fun p => ["input", "textarea", "select"].contains p.1.name
  languageFindings url elements ++ titleFindings url elements ++
    images.filterMap (imageFinding? url) ++
    controls.filterMap fun (control, inLabel) => controlFinding? url elements control inLabel

end FrontendAudit.Page
