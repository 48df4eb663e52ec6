/-!
# Encodings of a text

A text is written with fewer characters where not all of them may be used: bytes as letters for the
header of a request, and percent signs and names in ASCII for addresses.
-/

/-!
## Bytes as letters

Three bytes are written as four characters of six bits each; a rest of one or two bytes is filled up
with zero bits and equals signs, so that the length is always a multiple of four (`length_encode`).
-/

namespace FrontendAudit.Text

namespace Base64

/-- The character of six bits. -/
def digit (n : Nat) : Char :=
  if n < 26 then Char.ofNat (65 + n)
  else if n < 52 then Char.ofNat (71 + n)
  else if n < 62 then Char.ofNat (n - 4)
  else if n = 62 then '+'
  else '/'

/-- The lowest digits of a number, the highest of them first. -/
def digits : Nat → Nat → List Char
  | 0, _ => []
  | count + 1, n => digits count (n / 64) ++ [digit (n % 64)]

/-- The characters for some bytes. -/
def encode : List UInt8 → List Char
  | a :: b :: c :: rest =>
    digits 4 (65536 * a.toNat + 256 * b.toNat + c.toNat) ++ encode rest
  | [a, b] => digits 3 (1024 * a.toNat + 4 * b.toNat) ++ ['=']
  | [a] => digits 2 (16 * a.toNat) ++ ['=', '=']
  | [] => []

theorem length_digits (count n : Nat) : (digits count n).length = count := by
  induction count generalizing n with
  | zero => rfl
  | succ count ih => simp [digits, ih]

theorem length_encode (bytes : List UInt8) :
    (encode bytes).length = 4 * ((bytes.length + 2) / 3) := by
  fun_induction encode bytes with
  | case1 a b c rest ih =>
    simp only [List.length_append, length_digits, ih, List.length_cons]
    omega
  | case2 a b => simp [length_digits]
  | case3 a => simp [length_digits]
  | case4 => rfl

end Base64

/-!
## Percent encoding

A character that cannot stand for itself is written as its bytes, each a percent sign and two
hexadecimal digits. The percent sign stands for itself, so that what is encoded already stays as it
is.
-/

namespace Percent

/-- A hexadecimal digit in upper case. -/
def upperHex (n : Nat) : Char :=
  if n < 10 then Char.ofNat (48 + n) else Char.ofNat (55 + n)

/-- A byte as a percent sign and two digits. -/
def byteText (b : UInt8) : List Char :=
  ['%', upperHex (b.toNat / 16), upperHex (b.toNat % 16)]

/-- A character as its bytes. -/
def charText (c : Char) : List Char := c.toString.toUTF8.toList.flatMap byteText

/-- A text in which the characters that are not plain are encoded. -/
def encode (plain : Char → Bool) (s : List Char) : List Char :=
  s.flatMap fun c => if plain c then [c] else charText c

theorem encode_of_plain {plain : Char → Bool} {s : List Char} (h : ∀ c ∈ s, plain c = true) :
    encode plain s = s := by
  induction s with
  | nil => rfl
  | cons c s ih =>
    have hs := ih fun d hd => h d (List.mem_cons_of_mem c hd)
    rw [encode, List.flatMap_cons, if_pos (h c List.mem_cons_self)]
    rw [encode] at hs
    rw [hs]
    rfl

/-- The value of a hexadecimal digit. -/
def hexValue? (c : Char) : Option Nat :=
  if c.isDigit then some (c.toNat - 48)
  else if 'a' ≤ c && c ≤ 'f' then some (c.toNat - 87)
  else if 'A' ≤ c && c ≤ 'F' then some (c.toNat - 55)
  else none

/-- The bytes that a text stands for. -/
def decode : List Char → List UInt8
  | '%' :: a :: b :: s =>
    match hexValue? a, hexValue? b with
    | some m, some n => UInt8.ofNat (16 * m + n) :: decode s
    | _, _ => '%'.toNat.toUInt8 :: decode (a :: b :: s)
  | c :: s => c.toString.toUTF8.toList ++ decode s
  | [] => []

end Percent

/-!
## Names in ASCII

A name with characters beyond ASCII is written with letters and digits: its ASCII characters first,
then, for the others in ascending order, how far each is from the one before. A distance counts both
the steps between the numbers of the characters and the places in the name, and its digits have a
base that adapts to the distances so far.
-/

namespace Punycode

/-- A digit in base thirty-six. -/
def digit (n : Nat) : Char :=
  if n < 26 then Char.ofNat (97 + n) else Char.ofNat (22 + n)

/-- From what value on the digit at a place goes on to the next. -/
def threshold (bias place : Nat) : Nat := min 26 (max 1 (place - bias))

theorem threshold_pos (bias place : Nat) : 1 ≤ threshold bias place := by
  simp only [threshold]
  omega

/-- The digits of a distance, from a place on. -/
def distanceText (bias place n : Nat) : List Char :=
  let t := threshold bias place
  if n < t then [digit n]
  else digit (t + (n - t) % (36 - t)) :: distanceText bias (place + 36) ((n - t) / (36 - t))
termination_by n
decreasing_by
  have := threshold_pos bias place
  have := Nat.div_le_self (n - threshold bias place) (36 - threshold bias place)
  omega

/-- Divides a distance until it is small, and how often. -/
def shrink (n : Nat) : Nat × Nat :=
  if n ≤ 455 then (n, 0)
  else
    let (m, times) := shrink (n / 35)
    (m, times + 1)
termination_by n
decreasing_by omega

/-- The bias after a distance, with how many characters are written then. -/
def adapted (first : Bool) (distance written : Nat) : Nat :=
  let n := if first then distance / 700 else distance / 2
  let (m, times) := shrink (n + n / written)
  36 * times + 36 * m / (m + 38)

/-- How far the writing of a name is: the text, the next number of a character to write, the
distance so far, the bias, and how many characters are written. -/
structure Progress where
  text : List Char
  next : Nat
  distance : Nat
  bias : Nat
  written : Nat

namespace Progress

/-- Passes by a character of the name while those of one number are written. -/
def pass (basic number : Nat) (p : Progress) (c : Char) : Progress :=
  if c.toNat < number then { p with distance := p.distance + 1 }
  else if c.toNat = number then
    { p with
      text := p.text ++ distanceText p.bias 36 p.distance
      distance := 0
      bias := adapted (p.written = basic) p.distance (p.written + 1)
      written := p.written + 1 }
  else p

/-- Writes the characters of one number, unless they are written already. -/
def write (name : List Char) (basic : Nat) (p : Progress) (number : Nat) : Progress :=
  if number < p.next then p
  else
    let p := { p with distance := p.distance + (number - p.next) * (p.written + 1) }
    let p := name.foldl (pass basic number) p
    { p with next := number + 1, distance := p.distance + 1 }

end Progress

/-- A name in letters and digits. -/
def encode (name : List Char) : List Char :=
  let basic := name.filter fun c => c.toNat < 128
  let others := (name.filter fun c => 128 ≤ c.toNat).map Char.toNat
  let start : Progress :=
    { text := if basic.isEmpty then [] else basic ++ ['-']
      next := 128
      distance := 0
      bias := 72
      written := basic.length }
  ((others.mergeSort fun a b => decide (a ≤ b)).foldl (Progress.write name basic.length) start).text

end Punycode

end FrontendAudit.Text
