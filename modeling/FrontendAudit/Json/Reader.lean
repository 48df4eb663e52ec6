import FrontendAudit.Json.Basic
import FrontendAudit.Text.Integer

/-!
# Reading JSON

A text is read by recursive descent; each step takes the characters of one value off the front of
what is left. Besides the standard the reader accepts the names `NaN`, `Infinity` and `-Infinity`.
A number with neither fraction nor exponent is a whole number of any size. Control characters below
U+0020 may not stand unescaped in a text. Depth and length of the text bound the recursion, so the
fuel of the descent never runs out before the text does.

Three things are assumed where a text is read. A whole number may have any number of digits, lists
and objects may lie in one another to any depth, and half of a surrogate pair that stands alone,
which is no character, is read as U+FFFD. What is told of a text that was read does not hold beyond
the limits that a reader may have there, nor of such halves, except where they are looked for:
`parseWith?` reads them as any characters.
-/

namespace FrontendAudit.Json

open Number (Binary64)

/-- The blanks between tokens. -/
def isSpace (c : Char) : Bool :=
  c = ' ' || c = '\t' || c = '\n' || c = '\r'

/-- What is left after blanks. -/
def skipSpace (s : List Char) : List Char :=
  s.dropWhile isSpace

/-- The value of a hexadecimal digit. -/
def hexValue? (c : Char) : Option Nat :=
  if '0' ≤ c && c ≤ '9' then some (c.toNat - '0'.toNat)
  else if 'a' ≤ c && c ≤ 'f' then some (c.toNat - 'a'.toNat + 10)
  else if 'A' ≤ c && c ≤ 'F' then some (c.toNat - 'A'.toNat + 10)
  else none

/-- A number of four hexadecimal digits. -/
def hex4? : List Char → Option (Nat × List Char)
  | a :: b :: c :: d :: rest => do
    let a ← hexValue? a
    let b ← hexValue? b
    let c ← hexValue? c
    let d ← hexValue? d
    pure (((a * 16 + b) * 16 + c) * 16 + d, rest)
  | _ => none

/-- Whether a number is the first half of a surrogate pair. -/
def isHighHalf (n : Nat) : Bool := 0xd800 ≤ n && n < 0xdc00

/-- Whether a number is the second half of a surrogate pair. -/
def isLowHalf (n : Nat) : Bool := 0xdc00 ≤ n && n < 0xe000

section

variable (half : List Char)

/-- The characters of a number: those that stand for half of a surrogate pair, if it is one. -/
def charsOf (n : Nat) : List Char :=
  if isHighHalf n || isLowHalf n then half else [Char.ofNat n]

/-- The characters of a numeric escape, which may take two escapes, and what is left. -/
def unicodeEscape? (s : List Char) : Option (List Char × List Char) := do
  let (first, rest) ← hex4? s
  if isHighHalf first then
    match rest with
    | '\\' :: 'u' :: more =>
      match hex4? more with
      | some (second, rest') =>
        if isLowHalf second then
          some ([Char.ofNat (0x10000 + (first - 0xd800) * 1024 + (second - 0xdc00))], rest')
        else some (charsOf half first, rest)
      | none => none
    | _ => some (charsOf half first, rest)
  else some (charsOf half first, rest)

/-- The characters of an escape after its backslash, and what is left. -/
def escape? : List Char → Option (List Char × List Char)
  | '"' :: rest => some (['"'], rest)
  | '\\' :: rest => some (['\\'], rest)
  | '/' :: rest => some (['/'], rest)
  | 'b' :: rest => some (['\x08'], rest)
  | 'f' :: rest => some (['\x0c'], rest)
  | 'n' :: rest => some (['\n'], rest)
  | 'r' :: rest => some (['\r'], rest)
  | 't' :: rest => some (['\t'], rest)
  | 'u' :: rest => unicodeEscape? half rest
  | _ => none

/-- Reads a text after its opening quote, up to and with its closing quote, onto the characters read
so far, the last of them first. -/
def readText (fuel : Nat) (read : List Char) (s : List Char) : Option (List Char × List Char) :=
  match fuel, s with
  | 0, _ => none
  | _ + 1, [] => none
  | fuel + 1, c :: rest =>
    if c = '"' then some (read.reverse, rest)
    else if c = '\\' then
      match escape? half rest with
      | some (cs, rest) => readText fuel (cs.reverse ++ read) rest
      | none => none
    else if c.toNat < 32 then none
    else readText fuel (c :: read) rest

end

/-- The ASCII digits at the front, and what is left. -/
def spanDigits (s : List Char) : List Nat × List Char :=
  ((s.takeWhile fun c => (Text.asciiDigit? c).isSome).filterMap Text.asciiDigit?,
    s.dropWhile fun c => (Text.asciiDigit? c).isSome)

/-- The digits after a point, if a digit follows it. -/
def fraction? : List Char → Option (List Nat × List Char)
  | '.' :: rest =>
    match spanDigits rest with
    | ([], _) => none
    | r => some r
  | _ => none

/-- The exponent, if its mark is followed by a number. -/
def exponent? : List Char → Option (Int × List Char)
  | mark :: rest =>
    if mark = 'e' || mark = 'E' then
      let (negative, rest) : Bool × List Char :=
        match rest with
        | '-' :: rest => (true, rest)
        | '+' :: rest => (false, rest)
        | rest => (false, rest)
      match spanDigits rest with
      | ([], _) => none
      | (digits, rest) =>
        let size : Int := Text.ofDigits digits
        some (if negative then -size else size, rest)
    else none
  | [] => none

/-- The whole part of a number: a lone zero, or digits that do not start with one. -/
def wholePart? (s : List Char) : Option (List Nat × List Char) :=
  match s with
  | '0' :: rest => some ([0], rest)
  | s =>
    match spanDigits s with
    | ([], _) => none
    | r => some r

/-- A number after its sign. -/
def readNumber (negative : Bool) (s : List Char) : Option (Json × List Char) := do
  let (whole, rest) ← wholePart? s
  let (decimals, rest') := (fraction? rest).getD ([], rest)
  match decimals, exponent? rest' with
  | [], none =>
    let n : Int := Text.ofDigits whole
    pure (.int (if negative then -n else n), rest)
  | _, e? =>
    let (e, rest'') := e?.getD (0, rest')
    pure (.float (Binary64.ofDecimal negative (Text.ofDigits (whole ++ decimals))
      (e - decimals.length)), rest'')

/-- What is left after a word at the front. -/
def after? (word : String) (s : List Char) : Option (List Char) :=
  if word.toList.isPrefixOf s then some (s.drop word.length) else none

/-- The values that are written as a word. -/
def words : List (String × Json) :=
  [("null", .null), ("true", .bool true), ("false", .bool false), ("NaN", .float .nan),
    ("Infinity", .float (.infinite false)), ("-Infinity", .float (.infinite true))]

/-- A value that is written as a word. -/
def readWord (s : List Char) : Option (Json × List Char) :=
  words.findSome? fun (word, value) => (after? word s).map (value, ·)

section

variable (half : List Char)

mutual

/-- A value at the front of the text, and what is left. -/
def readValue : Nat → List Char → Option (Json × List Char)
  | 0, _ => none
  | fuel + 1, s =>
    match s with
    | '"' :: rest => do
      let (text, rest) ← readText half (rest.length + 1) [] rest
      pure (.str (String.ofList text), rest)
    | '[' :: rest =>
      match skipSpace rest with
      | ']' :: rest => some (.arr [], rest)
      | rest => do
        let (items, rest) ← readItems fuel [] rest
        pure (.arr items, rest)
    | '{' :: rest =>
      match skipSpace rest with
      | '}' :: rest => some (.obj [], rest)
      | rest => do
        let (members, rest) ← readMembers fuel [] rest
        pure (.obj (collect members), rest)
    | s =>
      match readWord s with
      | some r => some r
      | none =>
        match s with
        | '-' :: rest => readNumber true rest
        | s => readNumber false s

/-- The items of a list from the first of those left on, with its closing bracket, onto those read
so far, the last of them first. -/
def readItems : Nat → List Json → List Char → Option (List Json × List Char)
  | 0, _, _ => none
  | fuel + 1, read, s => do
    let (value, rest) ← readValue fuel s
    match skipSpace rest with
    | ',' :: rest => readItems fuel (value :: read) (skipSpace rest)
    | ']' :: rest => pure ((value :: read).reverse, rest)
    | _ => none

/-- The members of an object from the first of those left on, with its closing brace, onto those
read so far, the last of them first. -/
def readMembers : Nat → List (String × Json) → List Char →
    Option (List (String × Json) × List Char)
  | 0, _, _ => none
  | fuel + 1, read, s =>
    match s with
    | '"' :: rest => do
      let (key, rest) ← readText half (rest.length + 1) [] rest
      match skipSpace rest with
      | ':' :: rest => do
        let (value, rest) ← readValue fuel (skipSpace rest)
        let read := (String.ofList key, value) :: read
        match skipSpace rest with
        | ',' :: rest => readMembers fuel read (skipSpace rest)
        | '}' :: rest => pure (read.reverse, rest)
        | _ => none
      | _ => none
    | _ => none

end

/-- The value of a text that holds one value and blanks around it, where it is said what stands for
half of a surrogate pair. -/
def parseWith? (s : List Char) : Option Json := do
  let (value, rest) ← readValue half (s.length + 1) (skipSpace s)
  if (skipSpace rest).isEmpty then some value else none

end

/-- The value of a text that holds one value and blanks around it. -/
def parse? : List Char → Option Json := parseWith? ['\uFFFD']

/-- The value of a text. -/
def ofText? (s : String) : Option Json :=
  parse? s.toList

end FrontendAudit.Json
