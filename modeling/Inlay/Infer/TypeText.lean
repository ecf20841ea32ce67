import Inlay.Text.Split

/-!
Texts of types.
-/

namespace Inlay.TypeText

open Inlay.Text

/-- Puts parentheses around a type that a suffix would otherwise break apart. -/
def wrap (type : String) : String :=
  let chars := type.toList
  if occursIn ['|'] chars || occursIn ['=', '>'] chars || occursIn ['&'] chars then
    "(" ++ type ++ ")"
  else type

/-- The types with bars between them, each once, in the order of their first occurrence. -/
def union (types : List String) : String := " | ".intercalate types.eraseDups

def array (element : String) : String := wrap element ++ "[]"

/-- An object type with the given members. -/
def object : List String → String
  | [] => "\x7b\x7d"
  | members => "\x7b " ++ " ".intercalate members ++ " \x7d"

def member (name type : String) : String := name ++ ": " ++ type ++ ";"

def parameter (name : String) (optional : Bool) (type : String) : String :=
  name ++ (if optional then "?" else "") ++ ": " ++ type

def function (parameters : List String) (returned : String) : String :=
  "(" ++ ", ".intercalate parameters ++ ") => " ++ returned

def promise (type : String) : String := "Promise<" ++ type ++ ">"

def typeofName (name : String) : String := "typeof " ++ name

/-- What awaiting a value of the type gives: the inside of a promise, or a type that is none. -/
def awaited? (type : String) : Option String :=
  let chars := type.toList
  match after? "Promise<".toList chars, chars.getLast? with
  | some rest, some '>' => some (String.ofList rest.dropLast)
  | _, _ =>
    if type = "" || (after? "Promise".toList chars).isSome then none else some type

end Inlay.TypeText
