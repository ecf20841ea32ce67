import Inlay.Language

/-!
Changes of source files below a watched directory, and which files count as sources.
-/

namespace Inlay.Watch

open Inlay.Text

inductive ChangeKind
  | changed
  | created
  | deleted
  deriving DecidableEq, Repr

def ChangeKind.name : ChangeKind → String
  | .changed => "Changed"
  | .created => "Created"
  | .deleted => "Deleted"

structure Change where
  kind : ChangeKind
  path : String
  deriving DecidableEq, Repr

/-- Changes are ordered by path, then by the name of their kind. -/
def Change.precedes (a b : Change) : Bool :=
  a.path < b.path || a.path == b.path && a.kind.name ≤ b.kind.name

/-- Changes of source files, with forward slashes, each once and in order. -/
def collect (changes : List Change) : List Change :=
  let sources := changes.filter fun change => Language.isSupported change.path
  let forward := sources.map fun change =>
    { change with path := String.ofList (Path.forward change.path.toList) }
  forward.eraseDups.mergeSort Change.precedes

/-- Directories that hold no sources of their own. -/
def ignoredDirectories : List String :=
  ["__pycache__", ".git", ".hg", ".svn", ".tox", ".venv", ".idea", "node_modules",
   ".mypy_cache", ".pytest_cache", ".hypothesis"]

def isIgnoredDirectory (name : List Char) : Bool := ignoredDirectories.contains (String.ofList name)

/-- Whether the end of a name, read backwards, is that of a compiled file. -/
def endsCompiled : List Char → Bool
  | kind :: 'y' :: 'p' :: '.' :: _ => kind == 'c' || kind == 'o' || kind == 'd'
  | _ => false

/-- Whether the end of a name, read backwards, is that of a safe write. -/
def endsSafeWrite : List Char → Bool
  | '_' :: '_' :: '_' :: _ :: _ :: _ :: '_' :: 'b' :: 'j' :: '_' :: '_' :: '_' :: '.' :: _ => true
  | _ => false

/-- Whether the end of a name, read backwards, is that of a swap file. -/
def endsSwap : List Char → Bool
  | _ :: 'w' :: 's' :: '.' :: _ => true
  | _ => false

/-- Names of files that editors and tools leave behind. -/
def isIgnoredName (name : List Char) : Bool :=
  let ending := name.reverse
  endsCompiled ending || endsSafeWrite ending || endsSwap ending || ending.head? == some '~' ||
    (after? ['.', '#'] name).isSome || name == ".DS_Store".toList ||
    (after? "flycheck_".toList name).isSome

/-- The parts of a path after the slashes that it starts with. -/
def filteredParts (path : List Char) : List (List Char) :=
  splitAt '/' (path.dropWhile (· == '/'))

/-- Whether changes of a path are reported. -/
def isWatched (path : String) : Bool :=
  let parts := filteredParts path.toList
  Language.isSupported path && !parts.any isIgnoredDirectory && !isIgnoredName (parts.getLastD [])

end Inlay.Watch
