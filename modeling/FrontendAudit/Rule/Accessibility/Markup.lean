import FrontendAudit.Pattern.Build
import FrontendAudit.Pattern.Search
import FrontendAudit.Source.Heading
import FrontendAudit.Text.Find

/-!
# Markup as the accessibility checks see it

Tags, attributes and handlers within a single line of source, described by patterns. A tag ends at
the first `>`; attribute names are looked for anywhere inside a tag.
-/

namespace FrontendAudit.Accessibility

open Pattern

/-- Either quote. -/
def quoteMark : Pattern := among "'\""

/-- The tag of an image: an `img` element in any case, or an `Image` component. -/
def imageTag : Pattern :=
  seqs [word "<", .alt (caseless "img") (word "Image"), .boundary, many (except ">"), word ">"]

/-- An `alt` attribute with its equals sign. -/
def altAttribute : Pattern := seqs [.boundary, word "alt", blanks, word "="]

/-- An `alt` attribute whose value is a quoted text, possibly inside braces. The value is remembered
as 2. -/
def altValue : Pattern :=
  seqs [.boundary, word "alt", blanks, word "=", blanks, optional (seqs [word "\x7b", blanks]),
    .group 1 (among "\"'`"), .group 2 (few inLine), .again 1]

/-- A heading with its content on one line. The content is remembered as 2. -/
def headingElement : Pattern :=
  seqs [word "<", caseless "h", Source.headingDigit, .boundary, many (except ">"), word ">",
    .group 2 (few inLine), word "</", caseless "h", .again 1, blanks, word ">"]

/-- The tag of a form control. -/
def formControl : Pattern :=
  seqs [word "<", anyCaseless ["input", "textarea", "select"], .boundary, many (except ">"),
    word ">"]

/-- An attribute by which a label can reach a control. -/
def labelHook : Pattern :=
  seqs [.boundary, anyWord ["aria-label", "aria-labelledby", "id"], blanks, word "="]

/-- The attribute of a hidden control. -/
def hiddenInput : Pattern :=
  seqs [.boundary, caseless "type", blanks, word "=", blanks, quoteMark, caseless "hidden",
    quoteMark]

/-- A hexadecimal digit. -/
def hexDigit : Pattern := ofKinds [.range '0' '9', .range 'a' 'f', .range 'A' 'F']

/-- A literal color in a style. -/
def colorLiteral : Pattern :=
  seqs [.boundary, anyWord ["color", "background-color", "backgroundColor"], blanks, word ":",
    blanks, optional quoteMark,
    .alt (seqs [word "#", times 3 hexDigit, upTo 5 hexDigit, .boundary])
      (seqs [word "rgb", optional (word "a"), word "(", many (except ")"), word ")"])]

/-- A call that adds a listener for an event given by a pattern. -/
def listenerFor (event : Pattern) : Pattern :=
  seqs [caseless "addEventListener", blanks, word "(", blanks, quoteMark, event, quoteMark]

/-- The three key events, without the word they share. -/
def keyEvent : Pattern := anyCaseless ["down", "up", "press"]

/-- A handler for clicks. -/
def clickHandler : Pattern :=
  .alt (seqs [.boundary, caseless "onclick", blanks, word "="]) (listenerFor (caseless "click"))

/-- A handler for keys. -/
def keyboardHandler : Pattern :=
  .alt (seqs [.boundary, caseless "onkey", keyEvent, blanks, word "="])
    (listenerFor (seqs [caseless "key", keyEvent]))

/-- The start of an element that keys can operate without handlers. -/
def nativeInteractive : Pattern :=
  seqs [word "<", anyCaseless ["button", "a", "input", "select", "textarea", "summary"],
    .boundary]

/-- A label attribute whose value is an empty text. The name is remembered as 1. -/
def emptyAriaAttribute : Pattern :=
  seqs [.boundary, .group 1 (anyWord ["aria-label", "aria-labelledby"]), blanks, word "=",
    blanks, optional (seqs [word "\x7b", blanks]), .group 2 quoteMark, blanks, .again 2]

/-- Any opening tag. -/
def openTag : Pattern :=
  seqs [word "<", ofKinds [.range 'A' 'Z', .range 'a' 'z'], many (except "<>"), word ">"]

/-- An ARIA attribute. The name is remembered as 1. -/
def ariaAttribute : Pattern :=
  let letters := many1 (ofKinds [.range 'a' 'z'])
  seqs [.boundary, .group 1 (seqs [word "aria-", letters, many (seqs [word "-", letters])]), blanks,
    word "="]

/-- The start of an element that is no control of its own. -/
def clickableContainer : Pattern := seqs [word "<", anyCaseless ["div", "span"], .boundary]

/-- An attribute for the place in the tab order. -/
def tabIndex : Pattern := seqs [.boundary, caseless "tabindex", blanks, word "="]

/-- The start of a dialog. -/
def dialogOpen : Pattern := seqs [word "<", anyCaseless ["dialog", "modal"], .boundary]

/-- A word that tells of focus being managed. -/
def focusHint : Pattern :=
  anyCaseless ["focusTrap", "trapFocus", "tabindex", "autoFocus", "initialFocus"]

/-- The use of a component, given by its name. -/
def componentUse (name : String) : Pattern := seqs [word "<", word name, .boundary]

/-- The props that describe an image in another way than `alt`. -/
def altEquivalents : List String :=
  ["imgAlt", "altText", "aria-label", "aria-labelledby", "aria-describedby", "screenReaderText"]

/-- Whether a tag has a prop that stands in for `alt`: its name directly before an equals sign. -/
def hasAltEquivalent (tag : List Char) : Bool :=
  altEquivalents.any fun prop => Text.occurs (prop ++ "=").toList tag

/-- The words that say nothing about an image. -/
def genericWords : List String :=
  ["image", "img", "photo", "picture", "graphic", "icon", "logo", "banner", "placeholder"]

/-- The openings of descriptions that say too little about an image. -/
def genericOpenings : List String := ["image of", "picture of", "photo of"]

/-- Whether a stripped alternative text is generic: one of the words, ignoring case and points at
the end, or a text with one of the openings. No character beyond ASCII has a small letter in
them. -/
def isGenericAlt (text : List Char) : Bool :=
  let folded := Text.trimEnd (· = '.') (text.map Char.toLower)
  genericWords.any (·.toList = folded) || genericOpenings.any (·.toList.isPrefixOf folded)

end FrontendAudit.Accessibility
