/-!
Numbers in double precision, kept as whole mantissas times powers of two.

A ratio of whole numbers is rounded to the nearest double, a tie to the even mantissa. Nothing
here uses machine floating point, so every step is exact.
-/

namespace Inlay

/-- A finite double is `mantissa * 2 ^ exponent` with its sign. The mantissa is below `2 ^ 53` and
the exponent at least `-1074`, and unless the exponent is `-1074` the mantissa fills its 53 bits. -/
inductive Double
  | finite (negative : Bool) (mantissa : Nat) (exponent : Int)
  | infinite (negative : Bool)
  | nan
  deriving DecidableEq, Repr

namespace Double

def leastExponent : Int := -1074

def greatestExponent : Int := 971

/-- `2 ^ n` for a possibly negative `n`, as a numerator and a denominator. -/
def powerOfTwo (n : Int) : Nat × Nat := (Nat.pow 2 n.toNat, Nat.pow 2 (-n).toNat)

/-- The quotient rounded to the nearest whole number, a tie to the even one. -/
def roundQuotient (numerator denominator : Nat) : Nat :=
  let quotient := numerator / denominator
  let twice := 2 * (numerator % denominator)
  if twice < denominator then quotient
  else if denominator < twice then quotient + 1
  else quotient + quotient % 2

/-- The greatest `n` with `2 ^ n` at most the positive ratio. -/
def floorLog (numerator denominator : Nat) : Int :=
  let guess : Int := (numerator.log2 : Int) - denominator.log2
  let (up, down) := powerOfTwo guess
  if denominator * up ≤ numerator * down then guess else guess - 1

/-- The double nearest to a ratio with a positive denominator. -/
def ofRatio (negative : Bool) (numerator denominator : Nat) : Double :=
  if numerator = 0 then .finite negative 0 leastExponent else
  let exponent := max leastExponent (floorLog numerator denominator - 52)
  let (up, down) := powerOfTwo exponent
  let mantissa := roundQuotient (numerator * down) (denominator * up)
  let (mantissa, exponent) :=
    if mantissa = Nat.pow 2 53 then (Nat.pow 2 52, exponent + 1) else (mantissa, exponent)
  if greatestExponent < exponent then .infinite negative
  else .finite negative mantissa exponent

/-- The double nearest to `digits * 10 ^ exponent`. A decimal exponent out of all reach of the
digits' length is answered without computing the power. -/
def ofDecimal (negative : Bool) (digits : Nat) (exponent : Int) : Double :=
  let length : Int := (Nat.toDigits 10 digits).length
  if digits = 0 ∨ exponent + length < -400 then .finite negative 0 leastExponent
  else if 400 < exponent + length then .infinite negative
  else ofRatio negative (digits * Nat.pow 10 exponent.toNat) (Nat.pow 10 (-exponent).toNat)

def ofInt (n : Int) : Double := ofRatio (n < 0) n.natAbs 1

/-- The size of a finite double as a numerator and a denominator. -/
def ratio (mantissa : Nat) (exponent : Int) : Nat × Nat :=
  let (up, down) := powerOfTwo exponent
  (mantissa * up, down)

/-- The whole number that the double is, if it is one. -/
def toInt? : Double → Option Int
  | .finite negative mantissa exponent =>
    let (numerator, denominator) := ratio mantissa exponent
    if numerator % denominator = 0 then
      let size : Int := (numerator / denominator : Nat)
      some (if negative then -size else size)
    else none
  | _ => none

/-- The whole number left when the places after the point are dropped. -/
def truncate? : Double → Option Int
  | .finite negative mantissa exponent =>
    let (numerator, denominator) := ratio mantissa exponent
    let size : Int := (numerator / denominator : Nat)
    some (if negative then -size else size)
  | _ => none

/-- Whether the double is at least zero. Both zeros are. -/
def isNonnegative : Double → Bool
  | .finite negative mantissa _ => !negative || mantissa == 0
  | .infinite negative => !negative
  | .nan => false

/-- Whether the double is below one. -/
def isBelowOne : Double → Bool
  | .finite negative mantissa exponent =>
    let (numerator, denominator) := ratio mantissa exponent
    negative || decide (numerator < denominator)
  | .infinite negative => negative
  | .nan => false

def isAtMostOne (x : Double) : Bool := x.isBelowOne || x.toInt? == some 1

def isZero : Double → Bool
  | .finite _ mantissa _ => mantissa == 0
  | _ => false

end Double

end Inlay
