import Inlay.Json.Printer

/-!
Names of parameters in the signature help of a type server.

A reply is taken as it comes. One that is built differently than expected is refused at the first
step that it does not allow.
-/

namespace Inlay.TypeServer

open Inlay.Json (Fields)

/-- Why a reply cannot be used. -/
inductive Malformed
  /-- A field was looked up in something without fields. -/
  | noFields
  /-- A number or a sequence was expected. -/
  | wrongType
  /-- A sequence was expected and an object found. -/
  | noSuchKey
  /-- An index is out of range. -/
  | outOfRange (what : String)
  deriving DecidableEq, Repr

def fieldsOf : Json → Except Malformed Fields
  | .object fields => .ok fields
  | _ => .error .noFields

/-- A field that counts as something. -/
def something? (fields : Fields) (name : String) : Option Json :=
  (fields.get? name).bind Json.something?

def lengthOf : Json → Except Malformed Nat
  | .list items => .ok items.length
  | .text value => .ok value.length
  | .object fields => .ok fields.length
  | _ => .error .wrongType

/-- The item at an index. A negative one counts from the end. -/
def itemAt {α : Type} (what : String) (items : List α) (index : Int) : Except Malformed α :=
  let place := if index < 0 then index + items.length else index
  match if place < 0 then none else items[place.toNat]? with
  | some item => .ok item
  | none => .error (.outOfRange what)

def elementAt (sequence : Json) (index : Int) : Except Malformed Json :=
  match sequence with
  | .list items => itemAt "list" items index
  | .text value => (itemAt "string" value.toList index).map fun c => .text (String.singleton c)
  | .object _ => .error .noSuchKey
  | _ => .error .wrongType

/-- The index of the signature to use: the selected one if it exists, else the first. -/
def selectedIndex (items selected : Json) : Except Malformed Int :=
  match selected with
  | .int n => inRange n
  | .bool value => inRange (if value then 1 else 0)
  | .float value =>
    if !value.isNonnegative then .ok 0
    else
      match lengthOf items, value.truncate? with
      | .error e, _ => .error e
      | .ok _, none => .ok 0
      | .ok length, some n =>
        if n < length then
          match items with
          | .object _ => .error .noSuchKey
          | _ => .error .wrongType
        else .ok 0
  | _ => .error .wrongType
where
  inRange (n : Int) : Except Malformed Int :=
    if n < 0 then .ok 0 else (lengthOf items).map fun length => if n < length then n else 0

/-- The name of the parameter at an index. That of a parameter that collects the rest is marked
with dots, and names no argument beyond its own place. -/
def parameterNameIn (signature : Fields) (index : Int) : Except Malformed (Option Json) :=
  match something? signature "parameters" with
  | none => .ok none
  | some parameters =>
    let variadic := (something? signature "isVariadic").isSome
    match lengthOf parameters with
    | .error e => .error e
    | .ok length =>
      let last : Int := length - 1
      if index < last ∨ index = last ∧ !variadic then do
        let parameter ← elementAt parameters index
        return something? (← fieldsOf parameter) "name"
      else if index = last then do
        let parameter ← elementAt parameters (-1)
        return (something? (← fieldsOf parameter) "name").map fun name => .text ("..." ++ name.shown)
      else .ok none

/-- The name of the parameter that takes an argument, from a reply's body. -/
def parameterName (body : Json) (index : Int) : Except Malformed (Option Json) := do
  let fields ← fieldsOf body
  match something? fields "items" with
  | none => return none
  | some items =>
    let selected ← selectedIndex items ((fields.get? "selectedItemIndex").getD (.int 0))
    let signature ← elementAt items selected
    parameterNameIn (← fieldsOf signature) index

end Inlay.TypeServer
