import FrontendAudit.Json.Basic
import FrontendAudit.Number.Decimal
import FrontendAudit.Text.Quoted

/-!
# Writing JSON

Two layouts: on one line with a space after each comma and colon, and indented by two spaces a
level with a line feed at the end. Text is written as it is but for the quote, the backslash and the
control characters below U+0020, which have a short escape or four hexadecimal digits.
-/

namespace FrontendAudit.Json

open Number (Binary64)

/-- One character inside a written text. -/
def escaped (c : Char) : List Char :=
  if c = '"' then ['\\', '"']
  else if c = '\\' then ['\\', '\\']
  else if c = '\n' then ['\\', 'n']
  else if c = '\r' then ['\\', 'r']
  else if c = '\t' then ['\\', 't']
  else if c.toNat = 8 then ['\\', 'b']
  else if c.toNat = 12 then ['\\', 'f']
  else if c.toNat < 32 then '\\' :: 'u' :: Text.hexDigits 4 c.toNat
  else [c]

/-- A text between quotes. -/
def textLiteral (s : List Char) : List Char :=
  '"' :: (s.flatMap escaped ++ ['"'])

/-- A floating-point number; the numbers without a decimal have names. -/
def floatLiteral : Binary64 → List Char
  | .nan => "NaN".toList
  | .infinite negative => if negative then "-Infinity".toList else "Infinity".toList
  | x => x.shortestText

/-- How the parts of a list or object are set out: what follows the opening bracket, what stands
between two parts, and what precedes the closing bracket, each for a depth of nesting. -/
structure Layout where
  opening : Nat → List Char
  between : Nat → List Char
  closing : Nat → List Char

/-- All on one line. -/
def Layout.inline : Layout where
  opening _ := []
  between _ := [',', ' ']
  closing _ := []

/-- A line feed and the indentation of a depth. -/
def newLine (depth : Nat) : List Char :=
  '\n' :: List.replicate (2 * depth) ' '

/-- Each part on a line of its own. -/
def Layout.indented : Layout where
  opening depth := newLine (depth + 1)
  between depth := ',' :: newLine (depth + 1)
  closing depth := newLine depth

mutual

/-- The text of a value that stands at a depth of nesting. -/
def print (l : Layout) (depth : Nat) : Json → List Char
  | .null => "null".toList
  | .bool b => if b then "true".toList else "false".toList
  | .int n => Number.intText n
  | .float x => floatLiteral x
  | .str s => textLiteral s.toList
  | .arr [] => ['[', ']']
  | .arr (v :: vs) =>
    '[' :: (l.opening depth ++ print l (depth + 1) v ++ printItems l depth vs
      ++ l.closing depth ++ [']'])
  | .obj [] => ['{', '}']
  | .obj (m :: ms) =>
    '{' :: (l.opening depth ++ printMember l depth m ++ printMembers l depth ms
      ++ l.closing depth ++ ['}'])

/-- The further items of a list, each with what separates it from the one before. -/
def printItems (l : Layout) (depth : Nat) : List Json → List Char
  | [] => []
  | v :: vs => l.between depth ++ print l (depth + 1) v ++ printItems l depth vs

/-- A member of an object. -/
def printMember (l : Layout) (depth : Nat) : String × Json → List Char
  | (key, v) => textLiteral key.toList ++ ':' :: ' ' :: print l (depth + 1) v

/-- The further members of an object. -/
def printMembers (l : Layout) (depth : Nat) : List (String × Json) → List Char
  | [] => []
  | m :: ms => l.between depth ++ printMember l depth m ++ printMembers l depth ms

end

/-- The value on one line. -/
def compact (v : Json) : String :=
  String.ofList (print .inline 0 v)

/-- The value indented, with a line feed at the end. -/
def pretty (v : Json) : String :=
  String.ofList (print .indented 0 v ++ ['\n'])

end FrontendAudit.Json
