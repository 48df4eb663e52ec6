/-!
# Binary floating-point numbers

Numbers of double precision as exact data: a sign, a whole mantissa and a power of two. `ofRatio`
rounds a quotient of whole numbers to the nearest such number, a tie to the even mantissa; a decimal
literal and a division of integers are both read through it. Nothing here computes with machine
floats, so every result is a matter of whole numbers.
-/

namespace FrontendAudit.Number

/-- Rounds a quotient to the nearest whole number, a tie to the even one. -/
def roundDiv (num den : Nat) : Nat :=
  let q := num / den
  let twice := 2 * (num % den)
  if twice < den then q
  else if den < twice then q + 1
  else if q % 2 = 0 then q else q + 1

/-- A number of double precision. -/
inductive Binary64 where
  /-- The value `mantissa * 2 ^ exponent`, or its opposite. -/
  | finite (negative : Bool) (mantissa : Nat) (exponent : Int)
  | infinite (negative : Bool)
  | nan
  deriving DecidableEq, Repr, Inhabited

namespace Binary64

/-- The least exponent of a mantissa. -/
def leastExponent : Int := -1074

/-- A quotient after division of the numerator, or multiplication of the denominator, by a power
of two. -/
def scaled (num den : Nat) (exponent : Int) : Nat × Nat :=
  let power := Nat.pow 2 exponent.natAbs
  if exponent < 0 then (num * power, den) else (num, den * power)

/-- The exponent at which the mantissa of a positive quotient has 53 bits, but no less than the
least exponent. -/
def exponentFor (num den : Nat) : Int :=
  let guess : Int := (Nat.log2 num : Int) - (Nat.log2 den : Int) - 52
  let (n, d) := scaled num den guess
  let exact := if n / d < Nat.pow 2 52 then guess - 1 else guess
  max exact leastExponent

/-- A mantissa that was rounded up to 54 bits is halved, so that every number has one form. -/
def normalized (mantissa : Nat) (exponent : Int) : Nat × Int :=
  if mantissa = Nat.pow 2 53 then (Nat.pow 2 52, exponent + 1) else (mantissa, exponent)

/-- The number nearest to a quotient, infinite past the largest finite one. -/
def ofRatio (negative : Bool) (num den : Nat) : Binary64 :=
  if num = 0 then .finite negative 0 0
  else
    let rounding := exponentFor num den
    let (n, d) := scaled num den rounding
    let (m, e) := normalized (roundDiv n d) rounding
    if m * Nat.pow 2 (e + 1074).toNat < Nat.pow 2 (1024 + 1074) then .finite negative m e
    else .infinite negative

/-- The number nearest to `digits * 10 ^ exponent`. -/
def ofDecimal (negative : Bool) (digits : Nat) (exponent : Int) : Binary64 :=
  if digits = 0 then .finite negative 0 0
  -- beyond these magnitudes the answer is settled, whatever the digits are
  else if 800 < exponent + (Nat.log2 digits : Int) / 3 then .infinite negative
  else if exponent + (Nat.log2 digits : Int) < -400 then .finite negative 0 0
  else if exponent < 0 then ofRatio negative digits (Nat.pow 10 exponent.natAbs)
  else ofRatio negative (digits * Nat.pow 10 exponent.natAbs) 1

/-- `mantissa * 2 ^ exponent` as a quotient of whole numbers. -/
def quotientOf (mantissa : Nat) (exponent : Int) : Nat × Nat :=
  let power := Nat.pow 2 exponent.natAbs
  if exponent < 0 then (mantissa, power) else (mantissa * power, 1)

/-- Whether the number is zero, of either sign. -/
def isZero : Binary64 → Bool
  | .finite _ m _ => m = 0
  | _ => false

/-- Whether the number is neither infinite nor undefined. -/
def isFinite : Binary64 → Bool
  | .finite .. => true
  | _ => false

/-- The whole number that this one is, if it is one. -/
def toInt? : Binary64 → Option Int
  | .finite negative m e =>
    let (num, den) := quotientOf m e
    if num % den = 0 then some (if negative then -((num / den : Nat) : Int) else (num / den : Nat))
    else none
  | _ => none

/-- Whether the number lies between two whole numbers, ends included. -/
def isWithin (low high : Nat) : Binary64 → Bool
  | .finite negative m e =>
    let (num, den) := quotientOf m e
    (!negative || m = 0) && low * den ≤ num && num ≤ high * den
  | _ => false

/-- The least whole number that is not below a finite number. -/
def ceil? : Binary64 → Option Int
  | .finite negative m e =>
    let (num, den) := quotientOf m e
    some (if negative then -((num / den : Nat) : Int) else ((num + den - 1) / den : Nat))
  | _ => none

/-- The product with a power of two. -/
def scaleBy (k : Nat) : Binary64 → Binary64
  | .finite negative m e =>
    let (num, den) := quotientOf m (e + k)
    ofRatio negative num den
  | x => x

/-- The nearest number to an integer. -/
def ofInt (n : Int) : Binary64 :=
  ofRatio (n < 0) n.natAbs 1

end Binary64

end FrontendAudit.Number
