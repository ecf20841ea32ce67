import Inlay.Number.Double
import Inlay.Text.Digit

/-!
Doubles read from text: an optional sign, then `inf`, `infinity` or `nan` in any case, or plain
digits with an optional point and an optional exponent. At least one digit stands before or behind
the point.
-/

namespace Inlay.Double

open Inlay.Text

/-- The exponent part of a number, `0` when there is none. Nothing may follow it. -/
def readExponent? : List Char → Option Int
  | [] => some 0
  | c :: rest =>
    if c = 'e' ∨ c = 'E' then
      match rest with
      | '-' :: rest => (plainNumber? rest).map fun n => -(n : Int)
      | '+' :: rest => (plainNumber? rest).map Int.ofNat
      | rest => (plainNumber? rest).map Int.ofNat
    else none

/-- An unsigned number. -/
def readUnsigned? (negative : Bool) (text : List Char) : Option Double :=
  let isDigit := fun c => (plainDigit? c).isSome
  let whole := text.takeWhile isDigit
  let (places, rest) :=
    match text.dropWhile isDigit with
    | '.' :: rest => (rest.takeWhile isDigit, rest.dropWhile isDigit)
    | rest => ([], rest)
  let digits := (whole ++ places).filterMap plainDigit?
  if digits.isEmpty then none
  else (readExponent? rest).map fun exponent =>
    ofDecimal negative (valueOf digits) (exponent - places.length)

def readSigned? (negative : Bool) (text : List Char) : Option Double :=
  let word := String.ofList (text.map Char.toLower)
  if word = "inf" ∨ word = "infinity" then some (.infinite negative)
  else if word = "nan" then some .nan
  else readUnsigned? negative text

/-- A double written in any of its forms. -/
def read? : List Char → Option Double
  | '-' :: rest => readSigned? true rest
  | '+' :: rest => readSigned? false rest
  | text => readSigned? false text

end Inlay.Double
