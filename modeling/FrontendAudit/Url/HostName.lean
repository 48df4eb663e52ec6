import FrontendAudit.Text.Lines
import FrontendAudit.Text.Encoding
import FrontendAudit.Text.Word

/-!
# Names of hosts

A host is named by four numbers, by groups of hexadecimal digits in brackets, or by labels with
points between them. A name in ASCII is in lower case; in any other the labels beyond ASCII are
written in letters and digits with a mark in front.
-/

namespace FrontendAudit.HostName

/-- How a host is named. -/
inductive Form where
  | numbers | groups | ascii | international
  deriving DecidableEq, Repr

/-- Whether a text is made of runs of digits with single characters of any kind between them, so
many that `separators` are left, and whether a run has begun. -/
def isRuns : Nat → Bool → List Char → Bool
  | separators, inRun, [] => inRun && separators = 0
  | 0, _, c :: s => c.isDigit && isRuns 0 true s
  | separators + 1, inRun, c :: s =>
    (c.isDigit && isRuns (separators + 1) true s) || (inRun && isRuns separators false s)

/-- How a host is named. -/
def formOf (s : List Char) : Form :=
  if isRuns 3 false s then .numbers
  else if s.head? = some '[' && s.getLast? = some ']' then .groups
  else if s.all (·.toNat < 128) then .ascii
  else .international

/-- Whether a text is a number up to 255 without zeros in front. -/
def isByte (s : List Char) : Bool :=
  !s.isEmpty && s.all Char.isDigit && s.length ≤ 3 && (s.length = 1 || s.head? ≠ some '0') &&
    s.foldl (fun n c => 10 * n + (c.toNat - 48)) 0 ≤ 255

/-- Whether a text is four numbers with points between them. -/
def isNumbers (s : List Char) : Bool :=
  let parts := Text.splitOn '.' s
  parts.length = 4 && parts.all isByte

/-- Whether a text is a group of hexadecimal digits. -/
def isGroup (s : List Char) : Bool :=
  !s.isEmpty && s.length ≤ 4 && s.all fun c => (Text.Percent.hexValue? c).isSome

/-- The groups of a text, where four numbers at the end count as two groups; nothing if there are
others in their place. -/
def groupsOf? (s : List Char) : Option (List (List Char)) :=
  let parts := Text.splitOn ':' s
  let last := parts.getLastD []
  if !last.contains '.' then some parts
  else if isNumbers last then some (parts.dropLast ++ [['0'], ['0']])
  else none

/-- Whether groups are eight, or fewer with one gap between them or at an end. -/
def areGroups (parts : List (List Char)) : Bool :=
  let inner := (parts.drop 1).dropLast
  let before := (inner.takeWhile (!·.isEmpty)).length
  let filled := parts.filter (!·.isEmpty)
  filled.all isGroup &&
    if inner.any (·.isEmpty) then
      inner.count [] = 1 && filled.length < 8 &&
        (parts.head? ≠ some [] || before = 0) &&
        (parts.getLast? ≠ some [] || before + 1 = inner.length)
    else parts.length = 8 && filled.length = 8

/-- Whether a text is an address of groups, with the name of a zone at its end or not. -/
def isGroups (s : List Char) : Bool :=
  let address := s.takeWhile (· ≠ '%')
  let zone := (s.dropWhile (· ≠ '%')).drop 1
  (address.length = s.length || (!zone.isEmpty && !zone.contains '%')) &&
    match groupsOf? address with
    | none => false
    | some parts => 3 ≤ parts.length && parts.length ≤ 9 && areGroups parts

/-- Whether a character stands for itself in the name of a host. -/
def isPlain (c : Char) : Bool :=
  c.isAlphanum || "-._~!$&'()*+,;=\"\x60\x7b\x7d%|\\".toList.contains c

/-- Whether a text can be a label of a name that is not in ASCII throughout. -/
def isLabel (s : List Char) : Bool :=
  s.head? ≠ some '-' && s.getLast? ≠ some '-' && (s.drop 2).take 2 ≠ ['-', '-'] &&
    s.all fun c => c = '-' || (c ≠ '_' && Text.isWord c)

/-- A label in ASCII, if it can be one. -/
def asciiLabel? (s : List Char) : Option (List Char) :=
  if s.isEmpty || !isLabel s then none
  else
    let label := if s.all (·.toNat < 128) then s else "xn--".toList ++ Text.Punycode.encode s
    if label.length ≤ 63 then some label else none

/-- The characters that end a label. -/
def points : List Char := ['.', '\u3002', '\uff0e', '\uff61']

/-- A name that is not in ASCII throughout, in ASCII. -/
def asciiName? (s : List Char) : Option (List Char) :=
  let labels := Text.splitOn '.' (s.map fun c => if points.contains c then '.' else c)
  let closed := labels.getLast? = some []
  let labels := if closed then labels.dropLast else labels
  match labels.mapM asciiLabel? with
  | none => none
  | some labels =>
    let name := Text.joinWith ['.'] (if closed then labels ++ [[]] else labels)
    if name.length ≤ (if closed then 254 else 253) then some name else none

/-- The one way to write a host; its form, if it cannot have that form. -/
def normalize (s : List Char) : Except Form (List Char) :=
  match formOf s with
  | .numbers => if isNumbers s then .ok s else .error .numbers
  | .groups =>
    let groups := (s.drop 1).dropLast
    if isGroups groups then .ok groups else .error .groups
  | .ascii => .ok (Text.Percent.encode isPlain (s.map Char.toLower))
  | .international =>
    match asciiName? (s.map Char.toLower) with
    | some name => .ok name
    | none => .error .international

end FrontendAudit.HostName
