import FrontendAudit.Text.Blank

/-!
# Reading integers

Every script that counts in tens has its ten digits in a row, so a table of the zeros is enough.
An integer may have a sign, zeros in front, and single underscores between its digits. Settings of
the environment may use the digits of any script; numbers inside records are ASCII and may end in a
point and zeros.
-/

namespace FrontendAudit.Text

/-! ## Decimal digits -/

/-- The zeros of the scripts beyond ASCII. -/
def zeroDigits : List Nat := [
  0x660, 0x6f0, 0x7c0, 0x966, 0x9e6, 0xa66, 0xae6, 0xb66, 0xbe6, 0xc66, 0xce6, 0xd66, 0xde6,
  0xe50, 0xed0, 0xf20, 0x1040, 0x1090, 0x17e0, 0x1810, 0x1946, 0x19d0, 0x1a80, 0x1a90, 0x1b50,
  0x1bb0, 0x1c40, 0x1c50, 0xa620, 0xa8d0, 0xa900, 0xa9d0, 0xa9f0, 0xaa50, 0xabf0, 0xff10,
  0x104a0, 0x10d30, 0x11066, 0x110f0, 0x11136, 0x111d0, 0x112f0, 0x11450, 0x114d0, 0x11650,
  0x116c0, 0x11730, 0x118e0, 0x11950, 0x11c50, 0x11d50, 0x11da0, 0x16a60, 0x16ac0, 0x16b50,
  0x1d7ce, 0x1d7d8, 0x1d7e2, 0x1d7ec, 0x1d7f6, 0x1e140, 0x1e2f0, 0x1e950, 0x1fbf0]

/-- The value of a decimal digit of any script. -/
def digitValue? (c : Char) : Option Nat :=
  if c.toNat < 128 then
    if '0' ≤ c && c ≤ '9' then some (c.toNat - '0'.toNat) else none
  else
    (zeroDigits.find? fun z => z ≤ c.toNat && c.toNat < z + 10).map (c.toNat - ·)

/-- The value of an ASCII digit. -/
def asciiDigit? (c : Char) : Option Nat :=
  if '0' ≤ c && c ≤ '9' then some (c.toNat - '0'.toNat) else none

/-- Reads digits, most significant first, onto a number already read. -/
def ofDigits (digits : List Nat) : Nat :=
  digits.foldl (fun n d => 10 * n + d) 0

/-! ## Integers -/

/-- Digits with single underscores between them, after one digit already read. -/
def groupedDigitsAfter (digit? : Char → Option Nat) : List Char → Option (List Nat)
  | [] => some []
  | '_' :: c :: s =>
    match digit? c with
    | some d => (groupedDigitsAfter digit? s).map (d :: ·)
    | none => none
  | c :: s =>
    match digit? c with
    | some d => (groupedDigitsAfter digit? s).map (d :: ·)
    | none => none

/-- The number of a text of digits with single underscores between them. -/
def grouped? (digit? : Char → Option Nat) : List Char → Option Nat
  | [] => none
  | c :: s =>
    match digit? c with
    | some d => (groupedDigitsAfter digit? s).map fun ds => ofDigits (d :: ds)
    | none => none

/-- Reads a sign and then a natural number. -/
def signed? (nat? : List Char → Option Nat) : List Char → Option Int
  | '-' :: s => (nat? s).map fun n => -(n : Int)
  | '+' :: s => (nat? s).map fun n => (n : Int)
  | s => (nat? s).map fun n => (n : Int)

/-- White space in the narrower sense, without the separators U+001C to U+001F. -/
def isSpacing (c : Char) : Bool :=
  isBlank c && !(28 ≤ c.toNat && c.toNat ≤ 31)

/-- The text without the spacing at its ends. -/
def trimSpacing (s : List Char) : List Char :=
  trimEnd isSpacing (s.dropWhile isSpacing)

/-- The integer of a setting: digits of any script, spacing around them. -/
def settingInt? (s : List Char) : Option Int :=
  signed? (grouped? digitValue?) (trimSpacing s)

/-- The text before a point that only zeros follow. -/
def dropZeroFraction (s : List Char) : List Char :=
  let tail := s.dropWhile (· ≠ '.')
  if tail.drop 1 |>.all (· = '0') then s.takeWhile (· ≠ '.') else s

/-- The integer that a text inside a record stands for: ASCII digits, spacing around them. -/
def recordInt? (s : List Char) : Option Int :=
  signed? (fun digits => grouped? asciiDigit? (dropZeroFraction digits)) (trimSpacing s)

end FrontendAudit.Text
