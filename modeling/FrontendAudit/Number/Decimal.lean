import FrontendAudit.Number.Binary64
import FrontendAudit.Text.Integer

/-!
# Decimal text of numbers

The shortest decimal that reads back as a given number, and the decimal with a fixed count of
places. Of the decimals with the fewest digits that read back the nearest is taken. A number is
written positionally while its decimal point lies within sixteen digits and no more than three
zeros follow the point; beyond that it has an exponent of at least two digits.
-/

namespace FrontendAudit.Number

/-- A whole number in decimal. -/
def natText (n : Nat) : List Char := Nat.toDigits 10 n

/-- An integer in decimal. -/
def intText : Int → List Char
  | .ofNat n => natText n
  | .negSucc n => '-' :: natText (n + 1)

namespace Binary64

/-- Multiplies a quotient by a power of ten. -/
def timesPowerOfTen (num den : Nat) (k : Int) : Nat × Nat :=
  if k < 0 then (num, den * Nat.pow 10 k.natAbs) else (num * Nat.pow 10 k.natAbs, den)

/-- The least `k` with the quotient below `10 ^ k`, found by counting up from `start`. -/
def decimalPoint (num den : Nat) : Nat → Int → Int
  | 0, k => k
  | fuel + 1, k =>
    let (n, d) := timesPowerOfTen num den (-k)
    if n < d then k else decimalPoint num den fuel (k + 1)

/-- The digits of `count` places that read back as the number `num / den` was rounded to, where the
decimal point stands after `point` digits: of the two neighbours on that grid the nearer one that
reads back. -/
def digitsAt? (num den : Nat) (point : Int) (count : Nat) : Option Nat :=
  let target := ofRatio false num den
  let place := (count : Int) - point
  let (n, d) := timesPowerOfTen num den place
  let below := n / d
  let nearest := roundDiv n d
  let readsBack (digits : Nat) : Bool := ofDecimal false digits (-place) = target
  if readsBack nearest then some nearest
  else if readsBack below then some below
  else if readsBack (below + 1) then some (below + 1)
  else none

/-- The fewest digits that read back, with the place of the decimal point. -/
def shortestDigits (num den : Nat) : Nat × Int :=
  let low : Int := ((Nat.log2 num : Int) - (Nat.log2 den : Int) - 1) * 3 / 10 - 1
  let point := decimalPoint num den 700 low
  match (List.range 17).findSome? fun i => (digitsAt? num den point (i + 1)).map (·, i + 1) with
  | some (digits, count) =>
    -- a neighbour above may be the next power of ten, which moves the point
    if digits = Nat.pow 10 count then (1, point + 1) else (digits, point)
  | none => (0, point)

/-- Removes the zeros at the end of a text of digits. -/
def dropTrailingZeros (digits : List Char) : List Char :=
  (digits.reverse.dropWhile (· = '0')).reverse

/-- Lays digits out around a decimal point that stands after `point` of them. -/
def layout (digits : List Char) (point : Int) : List Char :=
  if -4 < point && point ≤ 16 then
    if point ≤ 0 then ['0', '.'] ++ List.replicate point.natAbs '0' ++ digits
    else if digits.length ≤ point.toNat then
      digits ++ List.replicate (point.toNat - digits.length) '0' ++ ['.', '0']
    else digits.take point.toNat ++ '.' :: digits.drop point.toNat
  else
    let e := point - 1
    let mark := if e < 0 then '-' else '+'
    let size := natText e.natAbs
    let exponent := if size.length < 2 then '0' :: size else size
    match digits with
    | [] => []
    | [d] => d :: 'e' :: mark :: exponent
    | d :: more => d :: '.' :: (more ++ 'e' :: mark :: exponent)

/-- The shortest text that reads back as the number. -/
def shortestText : Binary64 → List Char
  | .nan => "nan".toList
  | .infinite negative => if negative then "-inf".toList else "inf".toList
  | .finite negative m e =>
    let body :=
      if m = 0 then ['0', '.', '0']
      else
        let (num, den) := quotientOf m e
        let (digits, point) := shortestDigits num den
        layout (dropTrailingZeros (natText digits)) point
    if negative then '-' :: body else body

/-- The number with exactly `places` digits after the point, a tie going to the even digit. -/
def fixedText (places : Nat) : Binary64 → List Char
  | .nan => "nan".toList
  | .infinite negative => if negative then "-inf".toList else "inf".toList
  | .finite negative m e =>
    let (num, den) := quotientOf m e
    let digits := natText (roundDiv (num * Nat.pow 10 places) den)
    let padded := List.replicate (places + 1 - digits.length) '0' ++ digits
    let whole := padded.take (padded.length - places)
    let body := if places = 0 then whole else whole ++ '.' :: padded.drop (padded.length - places)
    if negative then '-' :: body else body

end Binary64

end FrontendAudit.Number
