import FrontendAudit.Page.CharacterName

/-!
# Character references

Characters of a page may be written as references: by name, or by number in decimal or hexadecimal.
A reference ends with a semicolon; some names are understood without it, though not in the value of
an attribute where the text goes on. What is no reference stays as it is.
-/

namespace FrontendAudit.Page

/-- The characters that are meant by numbers of control characters. -/
def replacedNumbers : List (Nat × Nat) :=
  [(128, 8364), (130, 8218), (131, 402), (132, 8222), (133, 8230), (134, 8224), (135, 8225),
   (136, 710), (137, 8240), (138, 352), (139, 8249), (140, 338), (142, 381), (145, 8216),
   (146, 8217), (147, 8220), (148, 8221), (149, 8226), (150, 8211), (151, 8212), (152, 732),
   (153, 8482), (154, 353), (155, 8250), (156, 339), (158, 382), (159, 376)]

/-- The character of a number; the replacement character for a number of none. -/
def numberedCharacter (n : Nat) : Char :=
  match replacedNumbers.find? (·.1 = n) with
  | some (_, m) => Char.ofNat m
  | none => if n = 0 || !n.isValidChar then Char.ofNat 0xfffd else Char.ofNat n

/-- The characters of a name, one or two. -/
def charactersOf? (name : String) : Option (List Char) :=
  match namedCharacters.find? (·.1 = name) with
  | some (_, n) => some [Char.ofNat n]
  | none => (namedPairs.find? (·.1 = name)).map fun (_, m, n) => [Char.ofNat m, Char.ofNat n]

/-- The value of a digit in a base of ten or sixteen. -/
def digitOf? (hexadecimal : Bool) (c : Char) : Option Nat :=
  if c.isDigit then some (c.toNat - 48)
  else if !hexadecimal then none
  else if 'a' ≤ c && c ≤ 'f' then some (c.toNat - 87)
  else if 'A' ≤ c && c ≤ 'F' then some (c.toNat - 55)
  else none

/-- The character that a numeric reference stands for, and what follows, after the number sign. -/
def numericReference? (s : List Char) : Option (Char × List Char) :=
  let (hexadecimal, s) := match s with
    | 'x' :: s | 'X' :: s => (true, s)
    | s => (false, s)
  let digits := s.takeWhile fun c => (digitOf? hexadecimal c).isSome
  let rest := s.drop digits.length
  if digits.isEmpty then none
  else
    let base := if hexadecimal then 16 else 10
    let n := digits.foldl (fun n c => n * base + (digitOf? hexadecimal c).getD 0) 0
    some (numberedCharacter n, if rest.head? = some ';' then rest.drop 1 else rest)

/-- The longest text at the start that is a name understood without a semicolon. -/
def looseName? (s : List Char) : Option String :=
  (looseNames.filter fun name => name.toList.isPrefixOf s).foldl
    (fun best name =>
      if (best.map String.length).getD 0 < name.length then some name else best) none

/-- The characters that a named reference stands for, and what follows, after the ampersand. -/
def namedReference? (inAttribute : Bool) (s : List Char) : Option (List Char × List Char) :=
  let name := s.takeWhile Char.isAlphanum
  let rest := s.drop name.length
  match if rest.head? = some ';' then charactersOf? (String.ofList name) else none with
  | some cs => some (cs, rest.drop 1)
  | none => do
    let loose ← looseName? s
    let rest := s.drop loose.length
    let goesOn := match rest.head? with
      | some c => c = '=' || c.isAlphanum
      | none => false
    if inAttribute && goesOn then none
    else
      return (← charactersOf? loose, rest)

/-- The characters that a reference stands for, and what follows, after the ampersand. -/
def reference? (inAttribute : Bool) : List Char → Option (List Char × List Char)
  | '#' :: s => (numericReference? s).map fun (c, rest) => ([c], rest)
  | s => namedReference? inAttribute s

/-- Replaces references, with fuel for every character. -/
def dereferenceWith (inAttribute : Bool) : Nat → List Char → List Char
  | 0, s => s
  | _ + 1, [] => []
  | fuel + 1, '&' :: s =>
    match reference? inAttribute s with
    | some (cs, rest) => cs ++ dereferenceWith inAttribute fuel rest
    | none => '&' :: dereferenceWith inAttribute fuel s
  | fuel + 1, c :: s => c :: dereferenceWith inAttribute fuel s

/-- The text with its references replaced. -/
def dereference (inAttribute : Bool) (s : List Char) : List Char :=
  dereferenceWith inAttribute s.length s

end FrontendAudit.Page
