import Inlay.Text.Blank
import Inlay.Text.Split

/-!
Types inside the one-line descriptions that a type server gives of names, such as
`const n: number` or `function f(a: number): string`.
-/

namespace Inlay.TypeServer

open Inlay.Text

/-- The place of the parenthesis that brings the depth back to zero, counted on from `index`. -/
def closingFrom? (depth : Int) (index : Nat) : List Char → Option Nat
  | [] => none
  | c :: rest =>
    if c = '(' then closingFrom? (depth + 1) (index + 1) rest
    else if c = ')' then
      if depth - 1 = 0 then some index else closingFrom? (depth - 1) (index + 1) rest
    else closingFrom? depth (index + 1) rest

/-- The place of the parenthesis that closes the first one from `start` on. -/
def matchingParen? (text : List Char) (start : Nat) : Option Nat :=
  closingFrom? 0 start (text.drop start)

/-- The same from a place that counts from the end of the text if it is negative, and then goes on
at the front. `none` means that there is no such place. -/
def matchingParenFrom? (text : List Char) (start : Int) : Option (Option Int) :=
  if 0 ≤ start then some ((matchingParen? text start.toNat).map Int.ofNat)
  else
    let place := start + text.length
    if place < 0 then none
    else some ((closingFrom? 0 0 (text.drop place.toNat ++ text)).map fun found => start + found)

/-- What follows `name: ` or `name?: ` at the start of the text. -/
def afterColon? (name text : List Char) : Option (List Char) :=
  match after? name text with
  | none => none
  | some rest =>
    match rest with
    | '?' :: ':' :: ' ' :: tail => some tail
    | ':' :: ' ' :: tail => some tail
    | _ => none

/-- What follows the name and a colon at the first place that comes after a blank or a dot. -/
def afterLaterName? (name : List Char) : List Char → Option (List Char)
  | [] => none
  | c :: rest =>
    if isBlank c || c == '.' then
      match afterColon? name rest with
      | some tail => some tail
      | none => afterLaterName? name rest
    else afterLaterName? name rest

/-- What follows the name and a colon, where the name stands first or after a blank or a dot. -/
def afterName? (name text : List Char) : Option (List Char) :=
  (afterColon? name text).or (afterLaterName? name text)

/-- The description without the kind in parentheses in front of it. -/
def withoutKind (display : List Char) : List Char :=
  match display with
  | '(' :: rest =>
    match rest.dropWhile (· != ')') with
    | ')' :: tail => tail.dropWhile isBlank
    | _ => display
  | _ => display

/-- The type behind the first colon, unless a parenthesis comes before it. -/
def typeBehindColon? (body : List Char) : Option (List Char) :=
  match cutAt? [':', ' '] body with
  | none => none
  | some (head, tail) => if '(' ∈ head then none else stripped? tail

/-- The type of a name. -/
def typeOf? (display name : List Char) : Option (List Char) :=
  match if name.isEmpty then none else afterName? name display with
  | some tail => stripped? tail
  | none => typeBehindColon? (withoutKind display)

/-- What a function type returns: what follows its parameters and an arrow. -/
def behindArrow? (type : List Char) : Option (List Char) :=
  match type with
  | '(' :: _ =>
    match matchingParen? type 0 with
    | none => none
    | some close => after? [' ', '=', '>', ' '] (type.drop (close + 1))
  | _ => none

/-- What a declaration returns: what follows its parameters and a colon. -/
def behindParameters? (body : List Char) : Option (List Char) :=
  match body.findIdx? (· == '(') with
  | none => none
  | some start =>
    match matchingParen? body start with
    | none => none
    | some close => after? [':', ' '] (body.drop (close + 1))

/-- What a function returns, from its declaration or from the type of the name that holds it. -/
def returnTypeOf? (display name : List Char) : Option (List Char) :=
  let declared := if name.isEmpty then none else typeOf? display name
  match declared.bind behindArrow? with
  | some tail => stripped? tail
  | none => (behindParameters? (withoutKind display)).bind stripped?

end Inlay.TypeServer
