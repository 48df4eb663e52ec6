/-!
# XML documents

A document is an element with attributes in order, a text and children. It is written on one line,
or with every child on a line of its own, indented by two spaces a level. In text and in the values
of attributes the characters of markup are written as references, in values also the quote and the
characters that would be taken for spaces.
-/

namespace FrontendAudit.Xml

/-- An element. -/
inductive Element where
  | mk (name : String) (attributes : List (String × String)) (text : String)
      (children : List Element)
  deriving Repr, Inhabited

/-- A character of a text as it is written. -/
def textChar : Char → List Char
  | '&' => "&amp;".toList
  | '<' => "&lt;".toList
  | '>' => "&gt;".toList
  | c => [c]

/-- A character of the value of an attribute as it is written. -/
def valueChar : Char → List Char
  | '"' => "&quot;".toList
  | '\r' => "&#13;".toList
  | '\n' => "&#10;".toList
  | '\t' => "&#09;".toList
  | c => textChar c

/-- An attribute as it is written. -/
def printAttribute (a : String × String) : List Char :=
  ' ' :: (a.1.toList ++ '=' :: '"' :: (a.2.toList.flatMap valueChar ++ ['"']))

/-- What stands before a child at a depth: nothing on one line, otherwise a line feed and the
indentation. -/
def lead (indented : Bool) (depth : Nat) : List Char :=
  if indented then '\n' :: List.replicate (2 * depth) ' ' else []

mutual

/-- An element at a depth as it is written. -/
def print (indented : Bool) (depth : Nat) : Element → List Char
  | .mk name attributes text children =>
    let opening := '<' :: (name.toList ++ attributes.flatMap printAttribute)
    let ending := '<' :: '/' :: (name.toList ++ ['>'])
    match children with
    | [] =>
      if text.isEmpty then opening ++ [' ', '/', '>']
      else opening ++ '>' :: (text.toList.flatMap textChar ++ ending)
    | children =>
      opening ++ '>' :: (text.toList.flatMap textChar ++ printAll indented (depth + 1) children ++
        lead indented depth ++ ending)

/-- Children at a depth as they are written. -/
def printAll (indented : Bool) (depth : Nat) : List Element → List Char
  | [] => []
  | e :: es => lead indented depth ++ print indented depth e ++ printAll indented depth es

end

/-- The first line of a document. -/
def declaration : String := "<?xml version='1.0' encoding='UTF-8'?>\n"

namespace Element

/-- The element on one line. -/
def compact (e : Element) : String := String.ofList (print false 0 e)

/-- The element as a document, indented. -/
def document (e : Element) : String := declaration ++ String.ofList (print true 0 e)

end Element

end FrontendAudit.Xml
