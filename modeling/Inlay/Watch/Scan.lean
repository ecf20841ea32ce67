import Inlay.Disk
import Inlay.Watch.Change

/-!
The source files below a directory, found by looking through it.

In every directory the files come first, in the order of their names, and then the directories in
that of theirs. Ignored directories are not entered.
-/

namespace Inlay.Watch

open Inlay.Text

/-- The parts of a path below a directory. -/
def below? : (directory path : Place) → Option Place
  | [], path => some path
  | _ :: _, [] => none
  | a :: directory, b :: path => if a = b then below? directory path else none

/-! ## A directory and what it holds -/

/-- A file that lies in the directory itself. -/
def fileName? : Place → Option (List Char)
  | [name] => some name
  | _ => none

/-- The directory in which a file lies deeper. -/
def directoryName? : Place → Option (List Char)
  | name :: _ :: _ => some name
  | _ => none

/-- A file that lies deeper, seen from the directory of that name. -/
def inDirectory? (name : List Char) : Place → Option Place
  | first :: second :: rest => if first = name then some (second :: rest) else none
  | _ => none

def fileNames (listing : List Place) : List (List Char) := listing.filterMap fileName?

def directoryNames (listing : List Place) : List (List Char) :=
  (listing.filterMap directoryName?).eraseDups

/-- What a directory of that name holds. -/
def inside (name : List Char) (listing : List Place) : List Place :=
  listing.filterMap (inDirectory? name)

def sorted (names : List (List Char)) : List (List Char) :=
  names.mergeSort fun a b => String.ofList a ≤ String.ofList b

/-! ## The walk -/

/-- The number of parts of all files together. -/
def size : List Place → Nat
  | [] => 0
  | place :: rest => place.length + size rest

/-- Whatever lies in a directory has lost a part there. -/
theorem size_inside (name : List Char) (listing : List Place) :
    size (inside name listing) + (inside name listing).length ≤ size listing := by
  induction listing with
  | nil => exact Nat.le_refl 0
  | cons place listing ih =>
    rw [size, inside, List.filterMap_cons]
    split
    · exact Nat.le_trans ih (Nat.le_add_left _ _)
    · next rest isRest =>
      have shorter : rest.length + 1 ≤ place.length := by
        unfold inDirectory? at isRest
        split at isRest
        · split at isRest
          · obtain rfl := Option.some.inj isRest
            exact Nat.le_refl _
          · cases isRest
        · cases isRest
      rw [← inside, size, List.length_cons]
      omega

theorem inside_ne_nil {name : List Char} {listing : List Place}
    (isDirectory : name ∈ directoryNames listing) : inside name listing ≠ [] := by
  obtain ⟨place, listed, named⟩ := List.mem_filterMap.mp (List.mem_eraseDups.mp isDirectory)
  unfold directoryName? at named
  split at named
  · next second rest =>
    obtain rfl := Option.some.inj named
    exact List.ne_nil_of_mem (List.mem_filterMap.mpr ⟨_, listed, if_pos rfl⟩)
  · cases named

theorem size_inside_lt {name : List Char} {listing : List Place}
    (isDirectory : name ∈ directoryNames listing) : size (inside name listing) < size listing := by
  have filled := List.length_pos_iff.mpr (inside_ne_nil isDirectory)
  have smaller := size_inside name listing
  omega

def sourceNames (listing : List Place) : List (List Char) :=
  (sorted (fileNames listing)).filter fun name => Language.isSupported (String.ofList name)

def enteredNames (listing : List Place) : List (List Char) :=
  sorted ((directoryNames listing).filter fun name => !isIgnoredDirectory name)

theorem mem_enteredNames {name : List Char} {listing : List Place} :
    name ∈ enteredNames listing ↔
      name ∈ directoryNames listing ∧ isIgnoredDirectory name = false := by
  simp [enteredNames, sorted]

/-- The source files of a directory, then those of each directory in it. -/
def walk (listing : List Place) : List Place :=
  (sourceNames listing).map ([·]) ++
    (enteredNames listing).attach.flatMap fun ⟨name, _⟩ =>
      (walk (inside name listing)).map (name :: ·)
termination_by size listing
decreasing_by
  next isEntered => exact size_inside_lt (mem_enteredNames.mp isEntered).1

/-- The source files below a directory. -/
def scan (directory : Place) (files : List Place) : List String :=
  (walk (files.filterMap (below? directory))).map fun parts =>
    String.ofList (Path.forward (Disk.pathOf (directory ++ parts)).toList)

end Inlay.Watch
