import Inlay.Check.Coerce
import Inlay.Hint

/-!
Positions, edits and hints given as mappings.

Every fault of every field is reported, in the order of the fields. A position must have exactly
its two fields: a mapping with others is refused as a whole, whatever else is wrong. Edits and
hints ignore fields they do not know.
-/

namespace Inlay.Check

open Inlay.Json

/-- Why a mapping is no record. -/
inductive Refusal
  | faults (faults : List Fault)
  | wrongFields
  deriving DecidableEq, Repr

abbrev Reading (α : Type) := Except Refusal α

namespace Reading

def faults {α : Type} : Reading α → List Fault
  | .error (.faults faults) => faults
  | _ => []

def hasWrongFields {α : Type} : Reading α → Bool
  | .error .wrongFields => true
  | _ => false

def ofChecked {α : Type} : Checked α → Reading α
  | .ok value => .ok value
  | .error faults => .error (.faults faults)

/-- Places faults under a field. -/
def under {α : Type} (field : String) : Reading α → Reading α
  | .error (.faults faults) => .error (.faults (faults.map (Fault.under field)))
  | reading => reading

end Reading

/-- A position with coordinates that may be out of range. -/
def positionOf (line character : Checked Nat) : Checked Position :=
  match line, character with
  | .ok line, .ok character => .ok ⟨line, character⟩
  | line, character =>
    .error ((line.under "line").faults ++ (character.under "character").faults)

def position : Json → Reading Position
  | .object fields =>
    match Fields.get? fields "line", Fields.get? fields "character" with
    | some line, some character =>
      if fields.length = 2 then .ofChecked (positionOf (natural line) (natural character))
      else .error .wrongFields
    | _, _ => .error .wrongFields
  | _ => .error (.faults [⟨[], .notMapping "Position"⟩])

/-- A field that must be there. -/
def required {α : Type} (fields : Fields) (name : String) (read : Json → Reading α) : Reading α :=
  match fields.get? name with
  | some value => (read value).under name
  | none => .error (.faults [⟨[name], .missing⟩])

/-- A field that may be left out. -/
def optional {α : Type} (fields : Fields) (name : String) (default : α)
    (read : Json → Reading α) : Reading α :=
  match fields.get? name with
  | some value => (read value).under name
  | none => .ok default

def ranged {α : Type} : Except Misordered α → Reading α
  | .ok value => .ok value
  | .error m => .error (.faults [⟨[], .refused m.message⟩])

def edit : Json → Reading Edit
  | .object fields =>
    let start := required fields "start" position
    let stop := required fields "end" position
    let newText := optional fields "new_text" "" (.ofChecked ∘ text)
    match start, stop, newText with
    | .ok start, .ok stop, .ok newText => ranged (Edit.make start stop newText)
    | start, stop, newText =>
      if start.hasWrongFields || stop.hasWrongFields then .error .wrongFields
      else .error (.faults (start.faults ++ stop.faults ++ newText.faults))
  | _ => .error (.faults [⟨[], .notMapping "TextChange"⟩])

def hint : Json → Reading Hint
  | .object fields =>
    let before := required fields "text_before" (.ofChecked ∘ text)
    let after := required fields "text_after" (.ofChecked ∘ text)
    let start := required fields "start_position" position
    let stop := required fields "end_position" position
    let warning := optional fields "is_warning" false (.ofChecked ∘ bool)
    match before, after, start, stop, warning with
    | .ok before, .ok after, .ok start, .ok stop, .ok warning =>
      ranged (Hint.make before after start stop warning)
    | before, after, start, stop, warning =>
      if start.hasWrongFields || stop.hasWrongFields then .error .wrongFields
      else
        .error (.faults (before.faults ++ after.faults ++ start.faults ++ stop.faults ++
          warning.faults))
  | _ => .error (.faults [⟨[], .notMapping "Decoration"⟩])

end Inlay.Check
