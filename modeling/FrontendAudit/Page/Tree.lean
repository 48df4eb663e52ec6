import FrontendAudit.Page.Spacing

/-!
# The tree of a page

Tokens are put together to a tree with the elements that are open. A start tag closes open elements
that cannot hold it, such as a paragraph before another one. An end tag closes the nearest open
element of its name and all within, unless an element that weighs more lies in between; one without
an open element does nothing. The root, the head and the body start by themselves where they are
left out; where one of them starts a second time, its tags are passed over. At the end everything is
closed.
-/

namespace FrontendAudit.Page

/-- An element that is open, with its children so far, the last one first. -/
structure OpenElement where
  name : String
  attributes : List (String × String)
  children : List Node := []

/-- The tree so far: what is open, innermost first, and what is complete, the last one first;
whether there was a head and a body; and how many start tags of the root, the head or the body were
passed over that wait for their end tags. -/
structure Builder where
  stack : List OpenElement := []
  complete : List Node := []
  hadHead : Bool := false
  hadBody : Bool := false
  passedOver : Nat := 0

/-- Headings, lists and so on that close when one of some elements starts. -/
def closingStarts : List (List String × List String) :=
  [(["a"], ["a", "fieldset", "table", "td", "th"]),
   (["address"], ["dd", "dl", "dt", "form", "li", "ul"]),
   (["b"], ["center", "p", "td", "th"]),
   (["big", "s", "small", "strike", "tt"], ["p"]),
   (["caption", "col"], ["col", "colgroup", "tbody", "tfoot", "thead", "tr"]),
   (["colgroup"], ["colgroup", "tbody", "tfoot", "thead", "tr"]),
   (["dd"], ["dt"]),
   (["dir", "menu"], ["dd", "dl", "dt", "form", "ul"]),
   (["dl"], ["form", "li"]),
   (["dt"], ["dd", "dl"]),
   (["font"], ["center", "td", "th"]),
   (["form", "hr", "ol"], ["form"]),
   (["h1", "h2", "h3", "h4", "h5", "h6"], ["fieldset", "form", "li", "p", "table"]),
   (["head"], ["a", "abbr", "acronym", "address", "b", "bdo", "big", "blockquote", "body", "br",
      "center", "cite", "code", "dd", "dfn", "dir", "div", "dl", "dt", "em", "fieldset", "font",
      "form", "frameset", "h1", "h2", "h3", "h4", "h5", "h6", "hr", "i", "iframe", "img", "kbd",
      "li", "listing", "map", "menu", "ol", "p", "pre", "q", "s", "samp", "small", "span",
      "strike", "strong", "sub", "sup", "table", "tt", "u", "ul", "var", "xmp"]),
   (["i"], ["center"]),
   (["legend"], ["fieldset"]),
   (["li"], ["li"]),
   (["link", "style", "title"], ["body", "frameset"]),
   (["option"], ["optgroup", "option"]),
   (["p"], ["address", "blockquote", "body", "caption", "center", "col", "colgroup", "dd", "dir",
      "div", "dl", "dt", "fieldset", "form", "frameset", "h1", "h2", "h3", "h4", "h5", "h6", "head",
      "hr", "li", "listing", "menu", "multicol", "ol", "p", "pre", "table", "tbody", "td", "tfoot",
      "th", "title", "tr", "ul", "xmp"]),
   (["pre", "listing", "xmp"], ["dd", "dl", "dt", "fieldset", "form", "li", "table", "ul"]),
   (["span"], ["td", "th"]),
   (["tbody"], ["tbody", "tfoot"]),
   (["td", "th"], ["tbody", "td", "tfoot", "th", "tr"]),
   (["tfoot"], ["tbody"]),
   (["thead"], ["tbody", "tfoot"]),
   (["tr"], ["tbody", "tfoot", "tr"]),
   (["u"], ["p", "td", "th"]),
   (["ul"], ["address", "form", "menu", "ol", "pre"])]

/-- Whether an open element is closed by the start of another. -/
def closesBefore (name next : String) : Bool :=
  closingStarts.any fun (names, nexts) => names.contains name && nexts.contains next

/-- How much an element weighs against end tags. -/
def weight : String → Nat
  | "div" => 150
  | "td" | "th" => 160
  | "tr" => 170
  | "thead" | "tbody" | "tfoot" => 180
  | "table" => 190
  | "head" | "body" => 200
  | "html" => 220
  | _ => 100

namespace Builder

/-- Nodes, the last one first, with another one at the end; text goes on with text before it. -/
def appendNode : Node → List Node → List Node
  | .text s, .text before :: ns => .text (before ++ s) :: ns
  | n, ns => n :: ns

/-- Adds a node to the innermost open element. -/
def add (b : Builder) (n : Node) : Builder :=
  match b.stack with
  | [] => { b with complete := appendNode n b.complete }
  | top :: stack =>
    { b with stack := { top with children := appendNode n top.children } :: stack }

/-- Opens an element. -/
def push (b : Builder) (name : String) (attributes : List (String × String)) : Builder :=
  { b with
    stack := ⟨name, attributes, []⟩ :: b.stack
    hadHead := b.hadHead || name = "head"
    hadBody := b.hadBody || name = "body" }

/-- Closes the innermost open element. -/
def pop (b : Builder) : Builder :=
  match b.stack with
  | [] => b
  | top :: stack =>
    add { b with stack } (.element top.name top.attributes top.children.reverse)

/-- Closes a number of open elements. -/
def popMany (b : Builder) : Nat → Builder
  | 0 => b
  | n + 1 => popMany b.pop n

/-- How many open elements a start tag closes. -/
def closedByStart (name : String) (stack : List OpenElement) : Nat :=
  (stack.takeWhile fun e => closesBefore e.name name).length

/-- How many open elements an end tag closes. -/
def closedByEnd (name : String) : List OpenElement → Nat
  | [] => 0
  | e :: stack =>
    if e.name = name then 1
    else if weight name < weight e.name then 0
    else match closedByEnd name stack with
      | 0 => 0
      | n => n + 1

/-- Closes what cannot hold an element. -/
def makeRoom (name : String) (b : Builder) : Builder := b.popMany (closedByStart name b.stack)

/-- The elements that start a head, outside of a body. -/
def headContents : List String := ["script", "style", "meta", "link", "title", "base"]

/-- The elements that take the place of a body. -/
def frameElements : List String := ["noframes", "frame", "frameset"]

/-- Opens the root, if nothing is open. -/
def openRoot (b : Builder) : Builder := if b.stack.isEmpty then b.push "html" [] else b

/-- Whether an element is open. -/
def isOpen (name : String) (b : Builder) : Bool := b.stack.any (·.name = name)

/-- Opens what an element needs around it and was left out: the root, and the head or the body. -/
def openAround (name : String) (b : Builder) : Builder :=
  if name = "html" then b
  else
    let b := b.openRoot
    if name = "head" || name = "body" then b
    else if b.stack.length ≤ 1 && headContents.contains name then
      if b.hadHead || b.hadBody then b else b.push "head" []
    else if frameElements.contains name || b.hadBody || b.isOpen "body" || b.isOpen "head" then b
    else b.push "body" []

/-- Whether a start tag stands where its element cannot start. -/
def isMisplaced (name : String) (b : Builder) : Bool :=
  (name = "html" && !b.stack.isEmpty) || (name = "head" && b.stack.length ≠ 1) ||
    (name = "body" && b.isOpen "body")

/-- Whether text that says something needs an element around it. -/
def isBare (b : Builder) : Bool :=
  match b.stack with
  | [] => true
  | top :: _ => ["html", "head"].contains top.name

/-- Takes in text. -/
def addText (s : List Char) (b : Builder) : Builder :=
  if s.isEmpty then b
  else if s.all Token.isSpace || !b.isBare then b.add (.text s)
  else ((b.makeRoom "p").openAround "p").add (.text s)

/-- Takes in an end tag. -/
def close (name : String) (b : Builder) : Builder :=
  if b.passedOver ≠ 0 && ["html", "head", "body"].contains name then
    { b with passedOver := b.passedOver - 1 }
  else b.popMany (closedByEnd name b.stack)

/-- Takes in a token. -/
def step (b : Builder) : Token → Builder
  | .text s => b.addText s
  | .comment s => b.add (.comment s)
  | .stop name => b.close name
  | .start name attributes closed =>
    let b := (b.makeRoom name).openAround name
    if b.isMisplaced name then { b with passedOver := b.passedOver + 1 }
    else
      let b := b.push name attributes
      if closed || voidElements.contains name then b.pop else b

/-- The nodes when everything is closed. -/
def finish (b : Builder) : List Node :=
  (b.popMany b.stack.length).complete.reverse

end Builder

/-- The nodes of a page. -/
def ofText (s : List Char) : List Node :=
  condensedAll false ((Token.ofText s).foldl Builder.step {}).finish

end FrontendAudit.Page
