import Inlay.Check.Fault
import Inlay.Json.Value
import Inlay.Number.Reader
import Inlay.Number.Whole

/-!
Plain values as settings accept them.

A switch may be given as a number equal to zero or one or as one of several words. A whole number
may be given as a switch, as a double without places or as text. A number with places accepts
whole numbers, switches and text. A text must be given as text.

Whole numbers other than zero and one are no clear switches. They are no switches at all if they
need more than 64 bits.
-/

namespace Inlay.Check

open Inlay.Text

def falseWords : List String := ["0", "off", "f", "false", "n", "no"]

def trueWords : List String := ["1", "on", "t", "true", "y", "yes"]

/-- A switch given as a whole number of at most 64 bits. -/
def switch : Int → Checked Bool
  | 0 => .ok false
  | 1 => .ok true
  | _ => .refuse .unclearBool

def bool : Json → Checked Bool
  | .bool value => .ok value
  | .int value =>
    if -Int.pow 2 63 ≤ value ∧ value < Int.pow 2 63 then switch value else .refuse .notBool
  | .float value =>
    match value.toInt? with
    | some n => if n.natAbs < Nat.pow 2 63 then switch n else .refuse .notBool
    | none => .refuse .notBool
  | .text value =>
    let word := String.ofList (value.toList.map Char.toLower)
    if word ∈ falseWords then .ok false
    else if word ∈ trueWords then .ok true
    else .refuse .unclearBool
  | _ => .refuse .notBool

/-- Drops the zeros and underscores behind a first zero. The last one stays if nothing follows or
if a point does, and only a sign or another digit may follow otherwise. -/
def dropZeros? (last : Char) : List Char → Option (List Char)
  | [] => some [last]
  | c :: rest =>
    if c = '0' ∨ c = '_' then dropZeros? c rest
    else if c = '.' then some (last :: c :: rest)
    else if c = '-' ∨ (plainDigit? c).isSome then some (c :: rest)
    else none

/-- Drops the zeros in front of a text that starts with a digit. -/
def withoutLeadingZeros? : List Char → Option (List Char)
  | '0' :: rest => dropZeros? '0' rest
  | c :: rest => if (plainDigit? c).isSome then some (c :: rest) else none
  | [] => none

/-- Drops a point and the zeros behind it, if nothing else stands there. -/
def withoutPlaces (text : List Char) : List Char :=
  match text.dropWhile (· != '.') with
  | _ :: c :: rest => if (c :: rest).all (· == '0') then text.takeWhile (· != '.') else text
  | _ => text

/-- Drops underscores that stand between other characters. -/
def ungroup (text : List Char) : List Char :=
  if isGrouped text then withoutUnderscores text else text

/-- The plain form of a whole number that was given as text: without blanks, plus sign, leading
zeros, empty places and underscores. A digit follows the sign, and a minus sign that stands behind
leading zeros counts. -/
def tidy? (text : List Char) : Option (List Char) :=
  let (negative, unsigned) := Whole.splitSign (trim text)
  (withoutLeadingZeros? unsigned).map fun digits =>
    (if negative then ['-'] else []) ++ ungroup (withoutPlaces digits)

/-- The most characters of a whole number in plain form. -/
def lengthLimit : Nat := 4300

/-- A whole number in plain form: an optional minus sign and digits that start with a zero only if
nothing follows it. Its length is looked at before what stands behind the digits. -/
def plainInteger (text : List Char) : Checked Int :=
  let (negative, unsigned) :=
    match text with
    | '-' :: rest => (true, rest)
    | rest => (false, rest)
  let isDigit := fun c => (plainDigit? c).isSome
  let digits := unsigned.takeWhile isDigit
  if digits.isEmpty || digits.head? == some '0' && digits.length != 1 then
    .refuse .unreadableInteger
  else if lengthLimit < digits.length + (if negative then 1 else 0) then .refuse .oversized
  else if unsigned.dropWhile isDigit ≠ [] then .refuse .unreadableInteger
  else .ok (Whole.signed negative (valueOf (digits.filterMap plainDigit?)))

/-- A whole number given as text. -/
def integerText (text : List Char) : Checked Int :=
  match tidy? text with
  | some plain => plainInteger plain
  | none => .refuse .unreadableInteger

def integer : Json → Checked Int
  | .int value => .ok value
  | .bool value => .ok (if value then 1 else 0)
  | .float value =>
    match value with
    | .finite .. =>
      match value.toInt? with
      | some n => if n.natAbs < Nat.pow 2 63 then .ok n else .refuse .oversized
      | none => .refuse .fractional
    | _ => .refuse .notFinite
  | .text value => integerText value.toList
  | _ => .refuse .notInteger

/-- A whole number that is not below zero. -/
def natural (value : Json) : Checked Nat :=
  match integer value with
  | .ok n => if 0 ≤ n then .ok n.toNat else .refuse .belowZero
  | .error faults => .error faults

/-- A number given as text. Blanks may stand around it, or else underscores between any two of its
characters. -/
def numberText? (text : List Char) : Option Double :=
  (Double.read? (trim text)).or (Double.read? (ungroup text))

def number : Json → Checked Double
  | .float value => .ok value
  | .bool value => .ok (.ofInt (if value then 1 else 0))
  | .int value =>
    match Double.ofInt value with
    | .infinite _ => .refuse .notNumber
    | x => .ok x
  | .text value =>
    match numberText? value.toList with
    | some x => .ok x
    | none => .refuse .unreadableNumber
  | _ => .refuse .notNumber

/-- A number from zero to one. The upper bound is looked at first. -/
def share (value : Json) : Checked Double :=
  match number value with
  | .ok x =>
    if !x.isAtMostOne then .refuse .aboveOne
    else if !x.isNonnegative then .refuse .belowZero
    else .ok x
  | .error faults => .error faults

def text : Json → Checked String
  | .text value => .ok value
  | _ => .refuse .notText

end Inlay.Check
