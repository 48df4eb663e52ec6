import FrontendAudit.Text.CodeRange
import FrontendAudit.Text.Lines
import FrontendAudit.Xml.Element

/-!
# Reading XML documents

What a document says is what XML 1.0 reads from it. The reader holds to the productions of the
recommendation for documents that are made of elements, texts and references: it knows no comments,
processing instructions, character data sections and document types, and refuses a bare `>` in a
text. Line ends are made line feeds before anything else is read. Then a machine takes the document
character by character (`Reader.step`); it holds the elements whose ends are still to come.
-/

namespace FrontendAudit.Xml

open Text (CodeRange)

/-! ## Characters -/

/-- The characters that a document may hold: production 2. -/
def charRanges : List CodeRange :=
  [(0x9, 0xA), (0xD, 0xD), (0x20, 0xD7FF), (0xE000, 0xFFFD), (0x10000, 0x10FFFF)]

/-- Whether a document may hold a character. -/
def isChar (c : Char) : Bool := charRanges.any (·.holds c)

/-- White space: production 3. -/
def isSpace (c : Char) : Bool := c = ' ' || c = '\t' || c = '\n' || c = '\r'

/-- The characters that a name may begin with: production 4. -/
def nameStartRanges : List CodeRange :=
  [(0x3A, 0x3A), (0x41, 0x5A), (0x5F, 0x5F), (0x61, 0x7A), (0xC0, 0xD6), (0xD8, 0xF6),
    (0xF8, 0x2FF),
   (0x370, 0x37D), (0x37F, 0x1FFF), (0x200C, 0x200D), (0x2070, 0x218F), (0x2C00, 0x2FEF),
   (0x3001, 0xD7FF), (0xF900, 0xFDCF), (0xFDF0, 0xFFFD), (0x10000, 0xEFFFF)]

def isNameStart (c : Char) : Bool := nameStartRanges.any (·.holds c)

/-- The further characters of a name: production 4a. -/
def nameRanges : List CodeRange :=
  nameStartRanges ++ [(0x2D, 0x2E), (0x30, 0x39), (0xB7, 0xB7), (0x300, 0x36F), (0x203F, 0x2040)]

def isNameChar (c : Char) : Bool := nameRanges.any (·.holds c)

/-- Whether a text is a name: production 5. -/
def isName : List Char → Bool
  | [] => false
  | c :: s => isNameStart c && s.all isNameChar

/-! ## References -/

/-- The value of a digit in base ten or sixteen. -/
def digit? (base : Nat) (c : Char) : Option Nat :=
  let value :=
    if '0' ≤ c ∧ c ≤ '9' then some (c.toNat - '0'.toNat)
    else if 'a' ≤ c ∧ c ≤ 'f' then some (c.toNat - 'a'.toNat + 10)
    else if 'A' ≤ c ∧ c ≤ 'F' then some (c.toNat - 'A'.toNat + 10)
    else none
  value.filter (· < base)

/-- The character of a number in a base, if a document may hold it: production 66. -/
def numbered? (base : Nat) (digits : List Char) : Option Char :=
  match digits.mapM (digit? base) with
  | none | some [] => none
  | some values => (some (Char.ofNat (values.foldl (fun n d => base * n + d) 0))).filter isChar

/-- The entities that need no declaration. -/
def entities : List (String × Char) :=
  [("amp", '&'), ("lt", '<'), ("gt", '>'), ("quot", '"'), ("apos", '\'')]

/-- The character that a reference stands for, given what is between `&` and `;`. -/
def reference? : List Char → Option Char
  | '#' :: 'x' :: digits => numbered? 16 digits
  | '#' :: digits => numbered? 10 digits
  | name => (entities.find? (·.1.toList = name)).map (·.2)

/-! ## Documents -/

/-- A part of a document. -/
inductive Node where
  | text (s : List Char)
  | element (name : List Char) (attributes : List (List Char × List Char)) (content : List Node)
  deriving Repr

/-- A start tag. -/
structure Tag where
  name : List Char
  attributes : List (List Char × List Char) := []
  deriving Repr

/-- The start tag with a further attribute, whose name has to be a new one. -/
def Tag.add? (t : Tag) (name value : List Char) : Option Tag :=
  if t.attributes.any (·.1 = name) then none
  else some { t with attributes := t.attributes ++ [(name, value)] }

/-- An element whose end is still to come, with the characters behind its last child. -/
structure Unclosed where
  tag : Tag
  content : List Node := []
  text : List Char := []
  deriving Repr

/-- A text, if there is any. -/
def textNodes (s : List Char) : List Node := if s = [] then [] else [.text s]

/-- The element that an end tag closes. -/
def Unclosed.node (u : Unclosed) : Node :=
  .element u.tag.name u.tag.attributes (u.content ++ textNodes u.text)

/-- Where the machine stands. -/
inductive Mode where
  | content
  | reference (name : List Char)
  /-- Behind the beginning of a tag. -/
  | markup
  | name (name : List Char)
  /-- In a start tag, behind an attribute. -/
  | attributes (t : Tag)
  /-- In a start tag, behind white space. -/
  | space (t : Tag)
  | attribute (t : Tag) (name : List Char)
  /-- Behind the name of an attribute and white space. -/
  | attributeEnd (t : Tag) (name : List Char)
  /-- Behind the equality sign of an attribute. -/
  | equality (t : Tag) (name : List Char)
  | value (t : Tag) (name : List Char) (quote : Char) (value : List Char)
  | valueReference (t : Tag) (name : List Char) (quote : Char) (value reference : List Char)
  /-- Behind the slash of a tag that is both start and end. -/
  | slash (t : Tag)
  | ending (name : List Char)
  /-- In an end tag, behind white space. -/
  | endingSpace (name : List Char)
  deriving Repr

/-- The machine: where it stands, the elements whose ends are still to come, from the inside out,
and the root if it was closed. -/
structure Reader where
  mode : Mode := .content
  unclosed : List Unclosed := []
  root : Option Node := none
  deriving Repr

namespace Reader

/-- Goes on in another mode. -/
def go (r : Reader) (mode : Mode) : Reader := { r with mode }

/-- Adds a character to the text of the innermost element. -/
def addChar (r : Reader) (c : Char) : Option Reader :=
  match r.unclosed with
  | [] => none
  | u :: us => some { r with mode := .content, unclosed := { u with text := u.text ++ [c] } :: us }

/-- Adds a node to the innermost element; without any, it is the root. -/
def addNode (r : Reader) (n : Node) : Reader :=
  match r.unclosed with
  | [] => { mode := .content, root := some n }
  | u :: us =>
    { r with
      mode := .content
      unclosed := { u with content := u.content ++ textNodes u.text ++ [n], text := [] } :: us }

/-- Closes the innermost element, which has to be of the given name. -/
def close (r : Reader) (name : List Char) : Option Reader :=
  match r.unclosed with
  | [] => none
  | u :: us => if u.tag.name = name then some (addNode { r with unclosed := us } u.node) else none

/-- The end of a start tag. -/
def endTag (r : Reader) (t : Tag) (c : Char) : Option Reader :=
  if c = '>' then some { r with mode := .content, unclosed := { tag := t } :: r.unclosed }
  else if c = '/' then some (r.go (.slash t))
  else none

/-- What may follow the name or an attribute of a start tag. -/
def inTag (r : Reader) (t : Tag) (c : Char) : Option Reader :=
  if isSpace c then some (r.go (.space t)) else r.endTag t c

/-- Takes a character. -/
def step (r : Reader) (c : Char) : Option Reader :=
  match r.mode with
  | .content =>
    if c = '<' then some (r.go .markup)
    else if r.unclosed.isEmpty then if isSpace c then some r else none
    else if c = '&' then some (r.go (.reference []))
    else if c = '>' then none
    else r.addChar c
  | .reference name =>
    if c = ';' then (reference? name).bind r.addChar else some (r.go (.reference (name ++ [c])))
  | .markup =>
    if c = '/' then some (r.go (.ending []))
    else if isNameStart c && r.root.isNone then some (r.go (.name [c]))
    else none
  | .name name =>
    if isNameChar c then some (r.go (.name (name ++ [c]))) else r.inTag { name } c
  | .attributes t => r.inTag t c
  | .space t =>
    if isSpace c then some r
    else if isNameStart c then some (r.go (.attribute t [c]))
    else r.endTag t c
  | .attribute t name =>
    if isNameChar c then some (r.go (.attribute t (name ++ [c])))
    else if isSpace c then some (r.go (.attributeEnd t name))
    else if c = '=' then some (r.go (.equality t name))
    else none
  | .attributeEnd t name =>
    if isSpace c then some r
    else if c = '=' then some (r.go (.equality t name))
    else none
  | .equality t name =>
    if isSpace c then some r
    else if c = '"' || c = '\'' then some (r.go (.value t name c []))
    else none
  | .value t name quote value =>
    if c = quote then (t.add? name value).map fun t => r.go (.attributes t)
    else if c = '&' then some (r.go (.valueReference t name quote value []))
    else if c = '<' then none
    else some (r.go (.value t name quote (value ++ [if isSpace c then ' ' else c])))
  | .valueReference t name quote value reference =>
    if c = ';' then
      (reference? reference).map fun c => r.go (.value t name quote (value ++ [c]))
    else some (r.go (.valueReference t name quote value (reference ++ [c])))
  | .slash t => if c = '>' then some (r.addNode (.element t.name t.attributes [])) else none
  | .ending name =>
    if if name.isEmpty then isNameStart c else isNameChar c then some (r.go (.ending (name ++ [c])))
    else if isSpace c then some (r.go (.endingSpace name))
    else if c = '>' then r.close name
    else none
  | .endingSpace name =>
    if isSpace c then some r else if c = '>' then r.close name else none

/-- Takes a text. -/
def run (r : Reader) (s : List Char) : Option Reader := s.foldlM step r

/-- The root, if the document is complete. -/
def document? (r : Reader) : Option Node :=
  match r.mode, r.unclosed with
  | .content, [] => r.root
  | _, _ => none

end Reader

/-! ## The declaration -/

/-- Whether a text is the name of an encoding: production 81. -/
def isEncoding : List Char → Bool
  | [] => false
  | c :: s => c.isAlpha && s.all fun c => c.isAlphanum || ['.', '_', '-'].contains c

/-- Whether a text is a version number: production 26. -/
def isVersion : List Char → Bool
  | '1' :: '.' :: d :: s => (d :: s).all Char.isDigit
  | _ => false

/-- What a declaration may say of a document: production 23. -/
def isDeclared (attributes : List (List Char × List Char)) : Bool :=
  [["version"], ["version", "encoding"], ["version", "standalone"],
      ["version", "encoding", "standalone"]].any (fun names =>
    names.map String.toList = attributes.map (·.1)) &&
  attributes.all fun (name, value) =>
    if name = "version".toList then isVersion value
    else if name = "encoding".toList then isEncoding value
    else value = "yes".toList || value = "no".toList

/-- Whether what stands between the name of the declaration and its end is right. -/
def isDeclaration (s : List Char) : Bool :=
  !s.contains '&' &&
  match Reader.run { mode := .name "xml".toList } s with
  | some ⟨.attributes t, _, _⟩ => isDeclared t.attributes
  | some ⟨.space t, _, _⟩ => isDeclared t.attributes
  | _ => false

/-- What follows the declaration, if there is one. -/
def behindDeclaration? : List Char → Option (List Char)
  | '<' :: '?' :: 'x' :: 'm' :: 'l' :: s =>
    match s.dropWhile (· ≠ '?') with
    | '?' :: '>' :: body => if isDeclaration (s.takeWhile (· ≠ '?')) then some body else none
    | _ => none
  | s => some s

/-- Reads a document. -/
def read? (s : List Char) : Option Node := do
  guard (s.all isChar)
  let body ← behindDeclaration? (Text.normalizeNewlines s)
  (← Reader.run {} body).document?

/-! ## Indentation -/

namespace Node

def isElement : Node → Bool
  | .element .. => true
  | .text _ => false

mutual

/-- The node without the white space that sets elements apart from each other. -/
def unindented : Node → Node
  | .text s => .text s
  | .element name attributes content =>
    .element name attributes (unindentedAll (content.any isElement) content)

/-- Nodes without the white space between them, if there are elements among them. -/
def unindentedAll (apart : Bool) : List Node → List Node
  | [] => []
  | .text s :: ns =>
    if apart && s.all isSpace then unindentedAll apart ns else .text s :: unindentedAll apart ns
  | n :: ns => unindented n :: unindentedAll apart ns

/-- The node that an element is. -/
def ofElement : Element → Node
  | .mk name attributes s children =>
    .element name.toList (attributes.map fun a => (a.1.toList, a.2.toList))
      (textNodes s.toList ++ ofElements children)

def ofElements : List Element → List Node
  | [] => []
  | e :: es => ofElement e :: ofElements es

end

end Node

end FrontendAudit.Xml
