import Inlay.Json.Value
import Inlay.Text.Split

/-!
Settings given flat, nested, or both at once, brought into one nested mapping.

A dotted key names a path. A mapping laid over a mapping is merged into it key by key, where the
keys of the new mapping may be dotted again. Anything else replaces what was there, and a mapping
that replaces something keeps its keys as they are.

Mappings are merged here however deep they go. The reader of a settings file stops at
`Json.depthLimit`, but a merge by calls inside one another, two for each level, comes to its own
limit at about half of that and breaks down; this is left out.
-/

namespace Inlay.Settings

open Inlay.Json Inlay.Text

/-- A path leads through a value that is no mapping. -/
inductive Blocked
  /-- A field was to be looked up in it. -/
  | lookup
  /-- A plain value was to be put into it. -/
  | assignment
  deriving DecidableEq, Repr

def isMapping : Json → Bool
  | .object _ => true
  | _ => false

/-- Changes the value at a path. `mapping` tells whether the new value is a mapping. -/
def update (mapping : Bool) (change : Option Json → Except Blocked Json) :
    List String → Fields → Except Blocked Fields
  | [], fields => .ok fields
  | [last], fields => (change (fields.get? last)).map (fields.put last)
  | part :: next :: rest, fields =>
    match fields.get? part with
    | none => (update mapping change (next :: rest) []).map fun inner => fields.put part (.object inner)
    | some (.object inner) =>
      (update mapping change (next :: rest) inner).map fun inner => fields.put part (.object inner)
    | some _ => .error (if rest.isEmpty && !mapping then .assignment else .lookup)

/-- The path that a dotted key names. -/
def path (key : String) : List String := (splitAt '.' key.toList).map String.ofList

mutual

/-- The value after `new` is laid over what was there. -/
def lay : (new : Json) → Option Json → Except Blocked Json
  | .object new, some (.object old) => (mergeInto new old).map .object
  | new, _ => .ok new

/-- Lays every field over the mapping, in order. -/
def mergeInto : List (String × Json) → Fields → Except Blocked Fields
  | [], old => .ok old
  | (key, value) :: rest, old =>
    match update (isMapping value) (lay value) (path key) old with
    | .ok merged => mergeInto rest merged
    | .error e => .error e

end

def sectionName : String := "inlineTypes"

/-- Adds one top-level setting. Keys that belong to others change nothing. -/
def add (known : List String) (nested : Fields) (key : String) (value : Json) :
    Except Blocked Fields :=
  match path key with
  | [] => .ok nested
  | [name] =>
    if name = sectionName then
      match value with
      | .object fields => mergeInto fields nested
      | _ => .ok nested
    else if name ∈ known then update (isMapping value) (lay value) [name] nested
    else .ok nested
  | name :: first :: rest =>
    if name = sectionName ∧ first ∈ known then
      update (isMapping value) (lay value) (first :: rest) nested
    else .ok nested

/-- All settings in one nested mapping. -/
def nest (known : List String) (settings : Fields) : Except Blocked Fields :=
  settings.foldlM (fun nested (key, value) => add known nested key value) []

end Inlay.Settings
