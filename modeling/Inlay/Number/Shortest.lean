import Inlay.Number.Double

/-!
The text of a double: the fewest decimal digits that read back as the same double, and of those
the nearest to it.

The digits are written positionally when the first of them counts at least a ten-thousandth and
less than ten to the sixteenth. A whole number keeps `.0`. Otherwise the first digit is followed by
the rest and a signed exponent of at least two digits.
-/

namespace Inlay.Double

/-- A decimal `digits * 10 ^ exponent`. -/
structure Decimal where
  digits : Nat
  exponent : Int
  deriving DecidableEq, Repr

/-- The least `n` from `n` on with `denominator ≤ numerator * 10 ^ n`, sought for `fuel` steps. -/
def placesToOne (numerator denominator : Nat) : (fuel n : Nat) → Nat
  | 0, n => n
  | fuel + 1, n =>
    if denominator ≤ numerator * Nat.pow 10 n then n
    else placesToOne numerator denominator fuel (n + 1)

/-- The greatest `n` with `10 ^ n` at most the positive ratio. -/
def floorLogTen (numerator denominator : Nat) : Int :=
  if denominator ≤ numerator then (Nat.toDigits 10 (numerator / denominator)).length - 1
  else -(placesToOne numerator denominator 400 0 : Int)

/-- The two neighbours of the ratio among the multiples of `10 ^ exponent`, the nearer first. -/
def neighbours (numerator denominator : Nat) (exponent : Int) : List Decimal :=
  let top := numerator * Nat.pow 10 (-exponent).toNat
  let bottom := denominator * Nat.pow 10 exponent.toNat
  let low := top / bottom
  let nearest := roundQuotient top bottom
  let other := if nearest = low then low + 1 else low
  [⟨nearest, exponent⟩, ⟨other, exponent⟩]

/-- The first of the numbers of digits from `count` on with a neighbour that reads back. -/
def search (mantissa : Nat) (exponent : Int) (numerator denominator : Nat) (leading : Int) :
    (fuel count : Nat) → Decimal
  | 0, _ => ⟨numerator / denominator, 0⟩
  | fuel + 1, count =>
    let found := (neighbours numerator denominator (leading - count + 1)).find? fun d =>
      ofDecimal false d.digits d.exponent == .finite false mantissa exponent
    found.getD (search mantissa exponent numerator denominator leading fuel (count + 1))

/-- The decimal that stands for a positive finite double. -/
def shortest (mantissa : Nat) (exponent : Int) : Decimal :=
  let (numerator, denominator) := ratio mantissa exponent
  search mantissa exponent numerator denominator (floorLogTen numerator denominator) 17 1

/-- Moves zeros from the end of the digits into the exponent. -/
def dropZeros : (fuel digits : Nat) → Int → Decimal
  | 0, digits, exponent => ⟨digits, exponent⟩
  | fuel + 1, digits, exponent =>
    if digits % 10 = 0 ∧ digits ≠ 0 then dropZeros fuel (digits / 10) (exponent + 1)
    else ⟨digits, exponent⟩

/-- Writes the decimal, which is not zero. -/
def Decimal.write (d : Decimal) : List Char :=
  let d := dropZeros 20 d.digits d.exponent
  let digits := Nat.toDigits 10 d.digits
  let leading : Int := d.exponent + digits.length - 1
  if leading < -4 ∨ 16 ≤ leading then
    let size := Nat.toDigits 10 leading.natAbs
    let size := List.replicate (2 - size.length) '0' ++ size
    let tail := if digits.tail.isEmpty then [] else '.' :: digits.tail
    digits.take 1 ++ tail ++ ['e', if leading < 0 then '-' else '+'] ++ size
  else if leading < 0 then
    ['0', '.'] ++ List.replicate (-leading - 1).toNat '0' ++ digits
  else
    let whole := leading.toNat + 1
    let padded := digits ++ List.replicate (whole - digits.length) '0'
    let places := padded.drop whole
    padded.take whole ++ ['.'] ++ if places.isEmpty then ['0'] else places

def writeSign (negative : Bool) : List Char := if negative then ['-'] else []

/-- The text of a double. -/
def write : Double → List Char
  | .nan => "nan".toList
  | .infinite negative => writeSign negative ++ "inf".toList
  | .finite negative mantissa exponent =>
    writeSign negative ++
      if mantissa = 0 then "0.0".toList else (shortest mantissa exponent).write

def text (x : Double) : String := String.ofList x.write

end Inlay.Double
