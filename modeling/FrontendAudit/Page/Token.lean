import FrontendAudit.Page.Reference
import FrontendAudit.Text.Lines

/-!
# Tokens of a page

The text of a page is a sequence of start tags, end tags, comments and text. Names of elements and
attributes are in lower case, and of attributes with the same name the first counts. Every line end
is a line feed. The text of scripts and styles is taken as it stands, up to the end tag; that of a
title or a text area is read likewise, but references count. The declaration of the document type is
passed over; other declarations and instructions count as comments. Zero characters vanish from
plain text and are replaced everywhere else.
-/

namespace FrontendAudit.Page

/-- A piece of a page. -/
inductive Token where
  | start (name : String) (attributes : List (String × String)) (closed : Bool)
  | stop (name : String)
  | text (s : List Char)
  | comment (s : List Char)
  deriving DecidableEq, Repr

namespace Token

/-- Whether a character separates attributes. -/
def isSpace (c : Char) : Bool :=
  c = ' ' || c = '\t' || c = '\n' || c = '\r' || c = '\x0c'

/-- Whether a character ends the name of an element. -/
def endsName (c : Char) : Bool := isSpace c || c = '/' || c = '>'

/-- A text with its zero characters replaced. -/
def withoutZeros (s : List Char) : List Char :=
  s.map fun c => if c = '\x00' then '\ufffd' else c

/-- A name in lower case. -/
def nameOf (s : List Char) : String := String.ofList ((withoutZeros s).map Char.toLower)

/-- The value of an attribute after the equals sign, and what follows. -/
def value (s : List Char) : List Char × List Char :=
  match s.dropWhile isSpace with
  | '"' :: s => (s.takeWhile (· ≠ '"'), (s.dropWhile (· ≠ '"')).drop 1)
  | '\'' :: s => (s.takeWhile (· ≠ '\''), (s.dropWhile (· ≠ '\'')).drop 1)
  | s =>
    let inValue (c : Char) : Bool := !(isSpace c || c = '>')
    (s.takeWhile inValue, s.dropWhile inValue)

/-- The attribute at the start of a text, and what follows. -/
def nextAttribute (s : List Char) : (String × String) × List Char :=
  let inName (c : Char) : Bool := !(endsName c || c = '=')
  -- an equals sign where a name begins is part of the name
  let name := s.take 1 ++ (s.drop 1).takeWhile inName
  let rest := s.drop name.length
  match rest.dropWhile isSpace with
  | '=' :: rest =>
    let (v, rest) := value rest
    ((nameOf name, String.ofList (dereference true (withoutZeros v))), rest)
  | _ => ((nameOf name, ""), rest)

/-- Whether a tag is marked as closed, and what follows it. -/
structure TagEnd where
  closed : Bool
  rest : List Char

/-- The attributes of a tag and its end; nothing if the tag does not end. -/
def attributes (found : List (String × String)) : Nat → List Char →
    Option (List (String × String) × TagEnd)
  | 0, _ => none
  | fuel + 1, s =>
    match s with
    | [] => none
    | '>' :: rest => some (found, ⟨false, rest⟩)
    | '/' :: '>' :: rest => some (found, ⟨true, rest⟩)
    | c :: rest =>
      if isSpace c || c = '/' then attributes found fuel rest
      else
        let (a, rest) := nextAttribute s
        attributes (if found.any (·.1 = a.1) then found else found ++ [a]) fuel rest

/-- The elements whose text is taken as it stands, besides scripts. -/
def rawElements : List String := ["style", "xmp", "iframe", "noembed", "noframes"]

/-- The elements that hold text only, in which references count. -/
def textElements : List String := ["title", "textarea"]

/-- Whether a text begins with a mark and the whole name of an element. -/
def beginsTag (mark : List Char) (name : String) (s : List Char) : Bool :=
  let opening := mark ++ name.toList
  (s.take opening.length).map Char.toLower = opening &&
    ((s.drop opening.length).head?.map endsName).getD false

/-- Whether a text begins with the end tag of an element. -/
def beginsEndTag (name : String) (s : List Char) : Bool := beginsTag ['<', '/'] name s

/-- The text of an element up to its end tag, and what follows. -/
def untilEndTag (name : String) : List Char → List Char × List Char
  | [] => ([], [])
  | c :: s =>
    if beginsEndTag name (c :: s) then ([], c :: s)
    else
      let (body, rest) := untilEndTag name s
      (c :: body, rest)

/-- Where in a script its text is: outside of comments, in one, or in a script within one. -/
inductive ScriptPlace where
  | outside | inComment | nested
  deriving DecidableEq, Repr

/-- Where in a script the text after the next character is. -/
def ScriptPlace.next (place : ScriptPlace) (s : List Char) : ScriptPlace :=
  match place with
  | .outside => if "<!--".toList.isPrefixOf s then .inComment else .outside
  | .inComment =>
    if "-->".toList.isPrefixOf s then .outside
    else if beginsTag ['<'] "script" s then .nested
    else .inComment
  | .nested =>
    if "-->".toList.isPrefixOf s then .outside
    else if beginsEndTag "script" s then .inComment
    else .nested

/-- The text of a script up to its end tag, and what follows. The end tag of a nested script is not
its end. -/
def untilScriptEnd (place : ScriptPlace) : List Char → List Char × List Char
  | [] => ([], [])
  | c :: s =>
    if place ≠ .nested && beginsEndTag "script" (c :: s) then ([], c :: s)
    else
      let (body, rest) := untilScriptEnd (place.next (c :: s)) s
      (c :: body, rest)

/-- The text of a comment, and what follows. At the end of the page a closing that has begun is no
text. -/
def commentText : List Char → List Char × List Char
  | [] | ['-'] | ['-', '-'] | ['-', '-', '!'] => ([], [])
  | '-' :: '-' :: '>' :: rest => ([], rest)
  | '-' :: '-' :: '!' :: '>' :: rest => ([], rest)
  | c :: s =>
    let (body, rest) := commentText s
    (c :: body, rest)

/-- A comment after its opening, and what follows. -/
def commentBody : List Char → List Char × List Char
  | '>' :: rest => ([], rest)
  | '-' :: '>' :: rest => ([], rest)
  | s => commentText s

/-- What stands before the next angle bracket that closes, and what follows it. -/
def untilBracket (s : List Char) : List Char × List Char :=
  (s.takeWhile (· ≠ '>'), (s.dropWhile (· ≠ '>')).drop 1)

/-- The text that an element holds as a token of its own, and what follows. -/
def elementText (name : String) (s : List Char) : List Token × List Char :=
  let texts (body : List Char) : List Token := if body.isEmpty then [] else [.text body]
  if name = "plaintext" then (texts (withoutZeros s), [])
  else if name = "script" then
    let (body, rest) := untilScriptEnd .outside s
    (texts (withoutZeros body), rest)
  else if rawElements.contains name then
    let (body, rest) := untilEndTag name s
    (texts (withoutZeros body), rest)
  else if textElements.contains name then
    let (body, rest) := untilEndTag name s
    (texts (dereference false (withoutZeros body)), rest)
  else ([], s)

/-- Whether a text after an opening `<!` declares the type of the document. -/
def declaresType (s : List Char) : Bool := nameOf (s.take 7) = "doctype"

/-- A comment that is not written as one, up to the next angle bracket, and what follows. -/
def looseComment (s : List Char) : Token × List Char :=
  let (body, rest) := untilBracket s
  (.comment (withoutZeros body), rest)

/-- The tokens of a text, with fuel for every character. -/
def scan : Nat → List Char → List Token
  | 0, _ => []
  | _ + 1, [] => []
  | fuel + 1, '<' :: '!' :: '-' :: '-' :: s =>
    let (body, rest) := commentBody s
    .comment (withoutZeros body) :: scan fuel rest
  | fuel + 1, '<' :: '!' :: s =>
    if declaresType s then scan fuel (untilBracket s).2
    else
      let (token, rest) := looseComment s
      token :: scan fuel rest
  | fuel + 1, '<' :: '?' :: s =>
    let (token, rest) := looseComment ('?' :: s)
    token :: scan fuel rest
  | fuel + 1, '<' :: '/' :: s =>
    match s with
    | [] => [.text ['<', '/']]
    | '>' :: rest => scan fuel rest
    | c :: _ =>
      if c.isAlpha then
        let name := s.takeWhile fun c => !endsName c
        match attributes [] (s.length + 1) (s.drop name.length) with
        | some (_, ⟨_, rest⟩) => .stop (nameOf name) :: scan fuel rest
        | none => []
      else
        let (token, rest) := looseComment s
        token :: scan fuel rest
  | fuel + 1, c :: s =>
    if c = '<' && (s.head?.map Char.isAlpha).getD false then
      let name := s.takeWhile fun c => !endsName c
      match attributes [] (s.length + 1) (s.drop name.length) with
      | some (found, ⟨closed, rest⟩) =>
        let name := nameOf name
        let (texts, rest) := if closed then ([], rest) else elementText name rest
        .start name found closed :: (texts ++ scan fuel rest)
      | none => []
    else
      let text := (c :: s.takeWhile (· ≠ '<')).filter (· ≠ '\x00')
      .text (dereference false text) :: scan fuel (s.dropWhile (· ≠ '<'))

/-- A text without the mark of its byte order. -/
def withoutMark : List Char → List Char
  | '\ufeff' :: s => s
  | s => s

/-- The tokens of a page. -/
def ofText (s : List Char) : List Token :=
  scan (s.length + 1) (Text.normalizeNewlines (withoutMark s))

end Token

end FrontendAudit.Page
