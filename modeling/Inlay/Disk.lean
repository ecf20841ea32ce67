import Inlay.Path
import Inlay.Text.Encoding

/-!
A tree of files.

A path is followed part by part from the working directory, or from the top if it is absolute.
Every part but the last has to name a directory, and `..` leads back up. A directory is there if
it holds a file, at whatever depth, or if the working directory lies in it.
-/

namespace Inlay

open Inlay.Text

/-- Why a file could not be read. -/
inductive ReadError
  | absent
  | directory
  /-- The path leads through a file. -/
  | notDirectory
  | forbidden
  deriving DecidableEq, Repr

/-- The parts of a path from the top down. -/
abbrev Place := List (List Char)

structure Disk where
  home : Place
  files : List (Place × Bytes)

namespace Disk

/-- The place of an absolute path, or of a path seen from the top. -/
def placeOf (path : String) : Place := Path.parts path.toList

/-- The absolute path of a place. -/
def pathOf (place : Place) : String := String.ofList ('/' :: ['/'].intercalate place)

/-- A tree of files, with paths seen from the working directory. -/
def ofFiles (home : String) (files : List (String × Bytes)) : Disk :=
  { home := placeOf home
    files := files.map fun (path, content) => (placeOf home ++ placeOf path, content) }

def isDirectory (disk : Disk) (place : Place) : Bool :=
  place.isPrefixOf disk.home ||
    disk.files.any fun (file, _) => place != file && place.isPrefixOf file

/-- What stands at a place. -/
def contentAt (disk : Disk) (place : Place) : Except ReadError Bytes :=
  match disk.files.lookup place with
  | some content => .ok content
  | none => .error (if disk.isDirectory place then .directory else .absent)

/-- Follows the parts of a path from a place on. -/
def follow (disk : Disk) (place : Place) : Place → Except ReadError Place
  | [] => .ok place
  | part :: rest =>
    match disk.contentAt place with
    | .ok _ => .error .notDirectory
    | .error .directory =>
      if part.isEmpty ∨ part = ['.'] then follow disk place rest
      else if part = ['.', '.'] then follow disk place.dropLast rest
      else follow disk (place ++ [part]) rest
    | .error e => .error e

/-- Reads the file at a path. -/
def read (disk : Disk) (path : String) : Except ReadError Bytes :=
  match path.toList with
  | [] => .error .absent
  | chars =>
    let start := if Path.isAbsolute chars then [] else disk.home
    match disk.follow start (splitAt '/' chars) with
    | .ok place => disk.contentAt place
    | .error e => .error e

/-- Whether there is anything at a path. -/
def found : Except ReadError Bytes → Bool
  | .ok _ => true
  | .error e => e == .directory

/-- Why a file gave no text. -/
inductive TextError
  | unreadable (cause : ReadError)
  | undecodable (cause : DecodeError)
  deriving DecidableEq, Repr

/-- The text of a file. Line ends stay as they are. -/
def decoded (encoding : Encoding) : Except ReadError Bytes → Except TextError String
  | .error cause => .error (.unreadable cause)
  | .ok content => (encoding.decode content).mapError .undecodable

/-- A path seen from a root. -/
def within (root path : String) : String := String.ofList (Path.join root.toList path.toList)

end Disk

end Inlay
