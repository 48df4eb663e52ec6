import FrontendAudit.Text.Blank
import FrontendAudit.Text.Lines

/-!
# Elements of a page

A page is a list of nodes: elements with attributes and children, text, and comments. An element is
written in one way: attributes sorted by name with their values in quotes, and elements that cannot
have content closed at once. The elements of a page in order, each with whether it lies in a label,
are what the checks go through.
-/

namespace FrontendAudit.Page

/-- A node of a page. -/
inductive Node where
  | element (name : String) (attributes : List (String × String)) (children : List Node)
  | text (s : List Char)
  | comment (s : List Char)
  deriving Repr, Inhabited

/-- The elements that never have content. -/
def voidElements : List String :=
  ["area", "base", "br", "col", "embed", "hr", "img", "input", "keygen", "link", "meta", "param",
    "source", "track", "wbr", "basefont", "bgsound", "frame", "isindex"]

/-- The elements that may lack content. -/
def sparseElements : List String := ["command", "image", "menuitem", "nextid", "spacer"]

/-- Whether an element without content is closed at once when written. -/
def closesAtOnce (name : String) : Bool :=
  voidElements.contains name || sparseElements.contains name

/-! ## Writing -/

/-- A character as it is written in text and in values. -/
def escapeChar : Char → List Char
  | '&' => "&amp;".toList
  | '<' => "&lt;".toList
  | '>' => "&gt;".toList
  | c => [c]

/-- A value in quotes. -/
def quotedValue (s : List Char) : List Char :=
  let s := s.flatMap escapeChar
  if !s.contains '"' then '"' :: s ++ ['"']
  else if !s.contains '\'' then '\'' :: s ++ ['\'']
  else '"' :: s.flatMap (fun c => if c = '"' then "&quot;".toList else [c]) ++ ['"']

/-- Whether the value of an attribute is a list of words. -/
def isWordList (element key : String) : Bool :=
  ["class", "accesskey", "dropzone"].contains key ||
    [("a", "rel"), ("a", "rev"), ("link", "rel"), ("link", "rev"), ("td", "headers"),
      ("th", "headers"), ("form", "accept-charset"), ("object", "archive"), ("area", "rel"),
      ("icon", "sizes"), ("iframe", "sandbox"), ("output", "for")].contains (element, key)

/-- The words of a text with single spaces between them. -/
def spacedWords (s : List Char) : List Char :=
  let words := s.foldr (fun c words =>
    if Text.isBlank c then [] :: words
    else match words with
      | [] => [[c]]
      | word :: words => (c :: word) :: words) [[]]
  Text.joinWith [' '] (words.filter (!·.isEmpty))

/-- The attributes of an element, as they are written. -/
def attributeText (element : String) (attributes : List (String × String)) : List Char :=
  (attributes.mergeSort fun a b => decide (a.1 ≤ b.1)).flatMap fun (name, value) =>
    let value := if isWordList element name then spacedWords value.toList else value.toList
    ' ' :: (name.toList ++ '=' :: quotedValue value)

mutual

/-- A node as it is written, `verbatim` in scripts and styles. -/
def Node.render (verbatim : Bool) : Node → List Char
  | .text s => if verbatim then s else s.flatMap escapeChar
  | .comment s => "<!--".toList ++ s ++ "-->".toList
  | .element name attributes children =>
    let opening := '<' :: (name.toList ++ attributeText name attributes)
    if children.isEmpty && closesAtOnce name then opening ++ ['/', '>']
    else opening ++ '>' :: (renderAll (["script", "style"].contains name) children ++
      ('<' :: '/' :: (name.toList ++ ['>'])))

/-- Nodes as they are written, one after the other. -/
def renderAll (verbatim : Bool) : List Node → List Char
  | [] => []
  | n :: ns => Node.render verbatim n ++ renderAll verbatim ns

end

/-! ## Going through -/

mutual

/-- The elements of a node in order, each with whether it lies in a label. -/
def Node.elements (inLabel : Bool) : Node → List (Node × Bool)
  | .element name attributes children =>
    (.element name attributes children, inLabel) ::
      elementsOf (inLabel || name = "label") children
  | _ => []

/-- The elements of some nodes in order, each with whether it lies in a label. -/
def elementsOf (inLabel : Bool) : List Node → List (Node × Bool)
  | [] => []
  | n :: ns => Node.elements inLabel n ++ elementsOf inLabel ns

end

mutual

/-- The text in a node. -/
def Node.textContent : Node → List Char
  | .text s => s
  | .comment _ => []
  | .element _ _ children => textContents children

/-- The text in some nodes. -/
def textContents : List Node → List Char
  | [] => []
  | n :: ns => Node.textContent n ++ textContents ns

end

namespace Node

/-- The name of an element. -/
def name : Node → String
  | element name _ _ => name
  | _ => ""

/-- The value of an attribute. -/
def attribute? (key : String) : Node → Option String
  | element _ attributes _ => (attributes.find? (·.1 = key)).map (·.2)
  | _ => none

/-- The value of an attribute, empty if there is none. -/
def attributeD (n : Node) (key : String) : List Char :=
  ((n.attribute? key).getD "").toList

end Node

end FrontendAudit.Page
