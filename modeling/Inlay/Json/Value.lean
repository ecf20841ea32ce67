import Inlay.Number.Double

/-!
Values of settings files and of messages: the JSON values, with whole numbers kept apart from
doubles and the fields of an object in the order in which they were first given.
-/

namespace Inlay

inductive Json
  | null
  | bool (value : Bool)
  | int (value : Int)
  | float (value : Double)
  | text (value : String)
  | list (items : List Json)
  | object (fields : List (String × Json))

namespace Json

/-- The fields of an object, each name once. -/
abbrev Fields := List (String × Json)

namespace Fields

def get? (fields : Fields) (name : String) : Option Json :=
  (fields.find? (·.1 = name)).map (·.2)

/-- Gives a field a value. A field that is already there keeps its place. -/
def put : Fields → String → Json → Fields
  | [], name, value => [(name, value)]
  | (key, old) :: rest, name, value =>
    if key = name then (key, value) :: rest else (key, old) :: put rest name value

/-- The fields of a list in which a name may be repeated. The last value of a name counts. -/
def ofList (pairs : List (String × Json)) : Fields :=
  pairs.foldl (fun fields (name, value) => fields.put name value) []

def names (fields : Fields) : List String := fields.map (·.1)

end Fields

mutual

/-- Whether two values are the same, with the fields of objects in the same order. -/
def decideEq : (a b : Json) → Decidable (a = b)
  | .null, b =>
    match b with
    | .null => isTrue rfl
    | .bool _ | .int _ | .float _ | .text _ | .list _ | .object _ => isFalse (by simp)
  | .bool a, b =>
    match b with
    | .bool b => decidable_of_iff (a = b) (by simp)
    | .null | .int _ | .float _ | .text _ | .list _ | .object _ => isFalse (by simp)
  | .int a, b =>
    match b with
    | .int b => decidable_of_iff (a = b) (by simp)
    | .null | .bool _ | .float _ | .text _ | .list _ | .object _ => isFalse (by simp)
  | .float a, b =>
    match b with
    | .float b => decidable_of_iff (a = b) (by simp)
    | .null | .bool _ | .int _ | .text _ | .list _ | .object _ => isFalse (by simp)
  | .text a, b =>
    match b with
    | .text b => decidable_of_iff (a = b) (by simp)
    | .null | .bool _ | .int _ | .float _ | .list _ | .object _ => isFalse (by simp)
  | .list a, b =>
    match b with
    | .list b =>
      have := decideItemsEq a b
      decidable_of_iff (a = b) (by simp)
    | .null | .bool _ | .int _ | .float _ | .text _ | .object _ => isFalse (by simp)
  | .object a, b =>
    match b with
    | .object b =>
      have := decideFieldsEq a b
      decidable_of_iff (a = b) (by simp)
    | .null | .bool _ | .int _ | .float _ | .text _ | .list _ => isFalse (by simp)

def decideItemsEq : (a b : List Json) → Decidable (a = b)
  | [], [] => isTrue rfl
  | [], _ :: _ => isFalse (by simp)
  | _ :: _, [] => isFalse (by simp)
  | a :: as, b :: bs =>
    have := decideEq a b
    have := decideItemsEq as bs
    decidable_of_iff (a = b ∧ as = bs) (by simp)

def decideFieldsEq : (a b : Fields) → Decidable (a = b)
  | [], [] => isTrue rfl
  | [], _ :: _ => isFalse (by simp)
  | _ :: _, [] => isFalse (by simp)
  | (name, a) :: as, (name', b) :: bs =>
    have := decideEq a b
    have := decideFieldsEq as bs
    decidable_of_iff ((name = name' ∧ a = b) ∧ as = bs) (by simp)

end

instance : DecidableEq Json := decideEq

def decideOk {ε α : Type} [DecidableEq α] (result : Except ε α) (value : α) :
    Decidable (result = .ok value) :=
  match result with
  | .ok found => decidable_of_iff (found = value) (by simp)
  | .error _ => isFalse (by simp)

instance {ε : Type} (result : Except ε Json) (value : Json) : Decidable (result = .ok value) :=
  decideOk result value

instance {ε : Type} (result : Except ε Fields) (fields : Fields) :
    Decidable (result = .ok fields) :=
  decideOk result fields

/-- Empty texts, lists and objects, zeros, `false` and `null` count as nothing. -/
def isSomething : Json → Bool
  | .null => false
  | .bool value => value
  | .int value => value != 0
  | .float value => !value.isZero
  | .text value => value != ""
  | .list items => !items.isEmpty
  | .object fields => !fields.isEmpty

/-- A value that counts as something. -/
def something? (value : Json) : Option Json := if value.isSomething then some value else none

def fields? : Json → Option Fields
  | .object fields => some fields
  | _ => none

end Json

end Inlay
