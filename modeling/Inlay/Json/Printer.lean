import Inlay.Json.Value
import Inlay.Number.Shortest
import Inlay.Text.Quoted

/-!
Writing values: as compact JSON, and as the text by which a value is shown where a text was
expected.
-/

namespace Inlay.Json

open Inlay.Text

def writeInt (n : Int) : List Char :=
  (if n < 0 then ['-'] else []) ++ Nat.toDigits 10 n.natAbs

/-- The character inside a JSON string. -/
def writeChar (c : Char) : List Char :=
  if c = '"' ∨ c = '\\' then ['\\', c]
  else if c.toNat < 0x20 ∨ c.toNat = 0x7F then '\\' :: 'u' :: hex 4 c.toNat
  else [c]

def writeText (text : String) : List Char := '"' :: text.toList.flatMap writeChar ++ ['"']

/-- Doubles without a number are written by name. -/
def writeFloat : Double → List Char
  | .nan => "NaN".toList
  | .infinite negative => Double.writeSign negative ++ "Infinity".toList
  | x => x.write

mutual

def write : Json → List Char
  | .null => "null".toList
  | .bool value => (if value then "true" else "false").toList
  | .int value => writeInt value
  | .float value => writeFloat value
  | .text value => writeText value
  | .list items => '[' :: writeItems items
  | .object fields => '\x7b' :: writeFields fields

def writeItems : List Json → List Char
  | [] => [']']
  | [item] => write item ++ [']']
  | item :: rest => write item ++ ',' :: writeItems rest

def writeFields : List (String × Json) → List Char
  | [] => ['\x7d']
  | [(name, value)] => writeText name ++ ':' :: write value ++ ['\x7d']
  | (name, value) :: rest => writeText name ++ ':' :: write value ++ ',' :: writeFields rest

end

mutual

/-- A value inside another one: texts are quoted. -/
def showInner : Json → List Char
  | .null => "None".toList
  | .bool value => (if value then "True" else "False").toList
  | .int value => writeInt value
  | .float value => value.write
  | .text value => quotedChars value.toList
  | .list items => '[' :: showItems items
  | .object fields => '\x7b' :: showFields fields

def showItems : List Json → List Char
  | [] => [']']
  | [item] => showInner item ++ [']']
  | item :: rest => showInner item ++ ',' :: ' ' :: showItems rest

def showFields : List (String × Json) → List Char
  | [] => ['\x7d']
  | [(name, value)] => quotedChars name.toList ++ ':' :: ' ' :: showInner value ++ ['\x7d']
  | (name, value) :: rest =>
    quotedChars name.toList ++ ':' :: ' ' :: showInner value ++ ',' :: ' ' :: showFields rest

end

/-- The text that stands for a value. A text stands for itself. -/
def shown : Json → String
  | .text value => value
  | value => String.ofList (showInner value)

/-- The value as one line of JSON. -/
def line (value : Json) : String := String.ofList value.write

end Inlay.Json
