import Inlay.Hint

/-!
The files that are known: their text, their hints, and how current these are.

A file's text comes from an editor that has it open or from a reader. While a file waits for the
reader its edits are queued, and they are applied to the text that is read. Every notification
raises the generation of the file, which tells a result built from an older text apart.
-/

namespace Inlay

/-- What is known of one file. `birth` tells an entry from a later one of the same path. -/
structure Entry where
  path : String
  birth : Nat
  text : String
  hints : List Hint
  generation : Nat
  dirty : Bool
  loaded : Bool
  opened : Bool
  needsReload : Bool
  pending : List Edit
  deriving DecidableEq, Repr

namespace Entry

/-- A file of which nothing is known yet. -/
def new (path : String) (birth : Nat) : Entry :=
  { path, birth, text := "", hints := [], generation := 0, dirty := false, loaded := false,
    opened := false, needsReload := false, pending := [] }

/-- Notes that the hints are out of date. -/
def bump (entry : Entry) : Entry :=
  { entry with generation := entry.generation + 1, dirty := true }

/-- Applies an edit to the text and moves the hints along. -/
def edit (entry : Entry) (edit : Edit) : Entry :=
  let edit := edit.normalize entry.text
  { entry with
    text := edit.apply entry.text
    hints := Hint.remapAll edit entry.hints }

def editAll (entry : Entry) (edits : List Edit) : Entry := edits.foldl Entry.edit entry

/-- Replaces the text as a whole and drops the hints that no longer fit. -/
def replaceText (entry : Entry) (text : String) : Entry :=
  { entry with text, hints := Hint.clampAll text entry.hints, loaded := true, needsReload := false }

/-- The text comes from an editor from now on. -/
def opening (entry : Entry) (text : String) : Entry :=
  { entry.replaceText text with opened := true, pending := [] }.bump

/-- Takes over text that was read and applies the edits that waited for it. -/
def load (entry : Entry) (text : String) : Entry :=
  { entry.replaceText text with pending := [] }.editAll entry.pending

/-- The file changed outside. Text of an editor is kept. -/
def markReload (entry : Entry) : Entry :=
  { entry with needsReload := entry.needsReload || !entry.opened }.bump

/-- Whether edits have to wait for text to be read. -/
def isWaiting (entry : Entry) : Bool := !entry.loaded || entry.needsReload

/-- Edits are applied, or queued while text is waited for. -/
def change (entry : Entry) (edits : List Edit) : Entry :=
  if entry.isWaiting then
    { entry with
      pending := entry.pending ++ edits
      needsReload := entry.needsReload || !entry.opened }.bump
  else (entry.editAll edits).bump

end Entry

/-- The entries in the order in which they were registered, at most one for each path. -/
structure Registry where
  entries : List Entry
  births : Nat
  deriving DecidableEq, Repr

namespace Registry

def empty : Registry := ⟨[], 0⟩

def get? (registry : Registry) (path : String) : Option Entry :=
  registry.entries.find? (·.path = path)

def contains (registry : Registry) (path : String) : Bool := (registry.get? path).isSome

/-- Registers the path if it is not known. -/
def ensure (registry : Registry) (path : String) : Registry :=
  if registry.contains path then registry
  else ⟨registry.entries ++ [.new path registry.births], registry.births + 1⟩

/-- Changes the entry of a path. -/
def modify (registry : Registry) (path : String) (change : Entry → Entry) : Registry :=
  { registry with
    entries := registry.entries.map fun entry => if entry.path = path then change entry else entry }

def remove (registry : Registry) (path : String) : Registry :=
  { registry with entries := registry.entries.filter (·.path ≠ path) }

def markReload (registry : Registry) (path : String) : Registry :=
  (registry.ensure path).modify path Entry.markReload

def opening (registry : Registry) (path text : String) : Registry :=
  (registry.ensure path).modify path (·.opening text)

def change (registry : Registry) (path : String) (edits : List Edit) : Registry :=
  (registry.ensure path).modify path (·.change edits)

/-- Text that was read. Paths that are not known are left alone. -/
def load (registry : Registry) (path text : String) : Registry :=
  registry.modify path (·.load text)

/-- The hints to show, none for a path that is not known. -/
def hints (registry : Registry) (path : String) : List Hint :=
  (registry.get? path).elim [] (·.hints)

def isDirty (registry : Registry) (path : String) : Bool := (registry.get? path).any (·.dirty)

end Registry

end Inlay
