import Inlay.Json.Value
import Inlay.Number.Whole
import Inlay.Text.Split
import Inlay.Text.Surrogate
import Inlay.Text.Width

/-!
Reading JSON text.

The grammar is the strict one, with three more numbers: `NaN`, `Infinity` and `-Infinity`. A number
without point and exponent is whole. Of a repeated field the last value counts. An escaped
surrogate that has no partner reads as the replacement character.

Whole numbers may have only so many digits, and lists and objects may be nested only so deep. The
first trouble in reading order is the one that is reported.

Nesting is followed with fuel. `parse` gives more of it than the text has characters, and each
call below it takes at least one character.
-/

namespace Inlay.Json

open Inlay.Text

/-- What is nested. -/
inductive Container
  | list
  | object
  deriving DecidableEq, Repr

/-- Why a text cannot be read. -/
inductive Error
  | malformed
  | tooManyDigits (count : Nat)
  | tooDeep (container : Container)
  deriving DecidableEq, Repr

def Container.name : Container → String
  | .list => "array"
  | .object => "object"

def Error.message : Error → String
  | .malformed => "not JSON"
  | .tooManyDigits count => (Whole.Error.tooManyDigits count).message
  | .tooDeep container =>
    "maximum recursion depth exceeded while decoding a JSON " ++ container.name ++
      " from a unicode string"

/-- The most lists and objects that may stand inside one another. -/
def depthLimit : Nat := 985

def isSpace (c : Char) : Bool := c = ' ' || c = '\t' || c = '\n' || c = '\r'

def skip (chars : List Char) : List Char := chars.dropWhile isSpace

def hexDigit? (c : Char) : Option Nat :=
  if '0' ≤ c ∧ c ≤ '9' then some (c.toNat - '0'.toNat)
  else if 'a' ≤ c ∧ c ≤ 'f' then some (c.toNat - 'a'.toNat + 10)
  else if 'A' ≤ c ∧ c ≤ 'F' then some (c.toNat - 'A'.toNat + 10)
  else none

/-- The number that four hexadecimal digits give. -/
def hexUnit? (a b c d : Char) : Option Nat :=
  match hexDigit? a, hexDigit? b, hexDigit? c, hexDigit? d with
  | some a, some b, some c, some d => some (((a * 16 + b) * 16 + c) * 16 + d)
  | _, _, _, _ => none

/-- The character of a one-letter escape. -/
def simpleEscape? (c : Char) : Option Nat :=
  match c with
  | '"' => some '"'.toNat
  | '\\' => some '\\'.toNat
  | '/' => some '/'.toNat
  | 'b' => some 8
  | 'f' => some 12
  | 'n' => some 10
  | 'r' => some 13
  | 't' => some 9
  | _ => none

/-- The code points and escaped units up to the closing quote, and what follows it. -/
def stringUnits? : List Char → Option (List Nat × List Char)
  | [] => none
  | '"' :: rest => some ([], rest)
  | '\\' :: 'u' :: a :: b :: c :: d :: rest =>
    match hexUnit? a b c d, stringUnits? rest with
    | some unit, some (units, rest) => some (unit :: units, rest)
    | _, _ => none
  | '\\' :: c :: rest =>
    match simpleEscape? c, stringUnits? rest with
    | some unit, some (units, rest) => some (unit :: units, rest)
    | _, _ => none
  | c :: rest =>
    if c = '\\' ∨ c.toNat < 0x20 then none
    else (stringUnits? rest).map fun (units, rest) => (c.toNat :: units, rest)

/-- Joins surrogate pairs. -/
def joinSurrogates : List Nat → List Char
  | [] => []
  | high :: low :: rest =>
    if isHighSurrogate high && isLowSurrogate low then
      ofSurrogates high low :: joinSurrogates rest
    else if isHighSurrogate high || isLowSurrogate high then
      replacement :: joinSurrogates (low :: rest)
    else Char.ofNat high :: joinSurrogates (low :: rest)
  | [unit] =>
    [if isHighSurrogate unit || isLowSurrogate unit then replacement else Char.ofNat unit]

def string? (chars : List Char) : Option (String × List Char) :=
  (stringUnits? chars).map fun (units, rest) => (String.ofList (joinSurrogates units), rest)

/-- A text after its opening quote. -/
def string (chars : List Char) : Except Error (String × List Char) :=
  match string? chars with
  | some found => .ok found
  | none => .error .malformed

def isPlainDigit (c : Char) : Bool := (plainDigit? c).isSome

/-- One or more digits. -/
def digits? : List Char → Option (List Nat × List Char)
  | c :: rest =>
    (plainDigit? c).map fun first =>
      (first :: (rest.takeWhile isPlainDigit).filterMap plainDigit?, rest.dropWhile isPlainDigit)
  | [] => none

/-- The whole part of a number: a zero, or digits that start with another one. -/
def wholePart? : List Char → Option (List Nat × List Char)
  | '0' :: rest => some ([0], rest)
  | chars => digits? chars

/-- The digits after the point, if there are any. -/
def places? : List Char → Option (List Nat × List Char)
  | '.' :: rest => digits? rest
  | _ => none

/-- The exponent of a number, if it has one. -/
def exponent? : List Char → Option (Int × List Char)
  | c :: rest =>
    if c = 'e' ∨ c = 'E' then
      match rest with
      | '-' :: rest => (digits? rest).map fun (digits, rest) => (-(valueOf digits : Int), rest)
      | '+' :: rest => (digits? rest).map fun (digits, rest) => ((valueOf digits : Int), rest)
      | rest => (digits? rest).map fun (digits, rest) => ((valueOf digits : Int), rest)
    else none
  | [] => none

/-- A number without its sign. -/
def unsigned (negative : Bool) (chars : List Char) : Except Error (Json × List Char) :=
  match wholePart? chars with
  | none => .error .malformed
  | some (whole, rest) =>
    match places? rest, exponent? ((places? rest).elim rest (·.2)) with
    | none, none =>
      if Whole.digitLimit < whole.length then .error (.tooManyDigits whole.length)
      else .ok (.int (Whole.signed negative (valueOf whole)), rest)
    | places, exponent =>
      let digits := places.elim [] (·.1)
      let power := exponent.elim 0 (·.1) - digits.length
      let rest := exponent.elim (places.elim rest (·.2)) (·.2)
      .ok (.float (.ofDecimal negative (valueOf (whole ++ digits)) power), rest)

/-- The named values. -/
def names : List (String × Json) :=
  [("null", .null), ("true", .bool true), ("false", .bool false), ("NaN", .float .nan),
   ("Infinity", .float (.infinite false)), ("-Infinity", .float (.infinite true))]

/-- A value that is neither a text nor nested. -/
def scalar (chars : List Char) : Except Error (Json × List Char) :=
  let named := names.findSome? fun (name, value) =>
    (after? name.toList chars).map fun rest => (value, rest)
  match named, chars with
  | some found, _ => .ok found
  | none, '-' :: rest => unsigned true rest
  | none, rest => unsigned false rest

mutual

/-- A value and what follows it. `room` tells how many more lists and objects may be nested. -/
def value : (fuel room : Nat) → List Char → Except Error (Json × List Char)
  | 0, _, _ => .error .malformed
  | fuel + 1, room, chars =>
    match skip chars, room with
    | '"' :: rest, _ => (string rest).map fun (value, rest) => (.text value, rest)
    | '[' :: _, 0 => .error (.tooDeep .list)
    | '[' :: rest, room + 1 =>
      match skip rest with
      | ']' :: rest => .ok (.list [], rest)
      | rest => (items fuel room rest).map fun (items, rest) => (.list items, rest)
    | '\x7b' :: _, 0 => .error (.tooDeep .object)
    | '\x7b' :: rest, room + 1 =>
      match skip rest with
      | '\x7d' :: rest => .ok (.object [], rest)
      | rest =>
        (pairs fuel room rest).map fun (pairs, rest) => (.object (Fields.ofList pairs), rest)
    | rest, _ => scalar rest

/-- One or more values up to the closing bracket. -/
def items : (fuel room : Nat) → List Char → Except Error (List Json × List Char)
  | 0, _, _ => .error .malformed
  | fuel + 1, room, chars =>
    match value fuel room chars with
    | .error e => .error e
    | .ok (item, rest) =>
      match skip rest with
      | ']' :: rest => .ok ([item], rest)
      | ',' :: rest => (items fuel room rest).map fun (items, rest) => (item :: items, rest)
      | _ => .error .malformed

/-- One or more named values up to the closing brace. -/
def pairs : (fuel room : Nat) → List Char → Except Error (List (String × Json) × List Char)
  | 0, _, _ => .error .malformed
  | fuel + 1, room, chars =>
    match skip chars with
    | '"' :: rest =>
      match string rest with
      | .error e => .error e
      | .ok (name, rest) =>
        match skip rest with
        | ':' :: rest =>
          match value fuel room rest with
          | .error e => .error e
          | .ok (value, rest) =>
            match skip rest with
            | '\x7d' :: rest => .ok ([(name, value)], rest)
            | ',' :: rest =>
              (pairs fuel room rest).map fun (pairs, rest) => ((name, value) :: pairs, rest)
            | _ => .error .malformed
        | _ => .error .malformed
    | _ => .error .malformed

end

/-- The value that the whole text is, spaces around it apart. -/
def parse (chars : List Char) : Except Error Json :=
  match value (2 * chars.length + 2) depthLimit chars with
  | .error e => .error e
  | .ok (value, rest) => if (skip rest).isEmpty then .ok value else .error .malformed

/-- The value that the text is, if it can be read. -/
def parse? (chars : List Char) : Option Json := (parse chars).toOption

end Inlay.Json
