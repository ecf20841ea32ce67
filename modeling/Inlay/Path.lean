import Inlay.Text.Lowercase
import Inlay.Text.Split

/-!
File paths with forward slashes.

A path is a list of parts. Empty parts and `.` parts say nothing and are left out; `..` stays,
unless the path is resolved. The suffix of a path is the end of its last part from the last dot
on, where a dot at either end of the part does not count.
-/

namespace Inlay.Path

open Inlay.Text

/-- The parts of a path that say something. -/
def parts (path : List Char) : List (List Char) :=
  (splitAt '/' path).filter fun part => !part.isEmpty && part != ['.']

def isAbsolute : List Char → Bool
  | '/' :: _ => true
  | _ => false

/-- The start of an absolute path. Exactly two slashes are kept. -/
def root : List Char → List Char
  | '/' :: '/' :: '/' :: _ => ['/']
  | '/' :: '/' :: _ => ['/', '/']
  | '/' :: _ => ['/']
  | _ => []

/-- The path without the parts that say nothing. A path without parts is `.` -/
def tidy (path : List Char) : List Char :=
  match root path ++ ['/'].intercalate (parts path) with
  | [] => ['.']
  | kept => kept

/-- A path seen from a directory. -/
def join (directory path : List Char) : List Char :=
  if isAbsolute path then tidy path else tidy (directory ++ '/' :: path)

/-- Takes back one part for each `..`; the stack holds the parts so far, the last first. -/
def climb : (stack parts : List (List Char)) → List (List Char)
  | stack, [] => stack.reverse
  | stack, part :: rest =>
    if part = ['.', '.'] then climb stack.tail rest else climb (part :: stack) rest

/-- An absolute path without `..`. -/
def resolve (path : List Char) : List Char := '/' :: ['/'].intercalate (climb [] (parts path))

/-- The last part, empty if there is none. -/
def lastPart (path : List Char) : List Char := (parts path).getLastD []

/-- The end of a name from its last dot on, if that dot is neither first nor last. -/
def suffixOf (name : List Char) : List Char :=
  let ending := name.reverse.takeWhile (· != '.')
  if ending.isEmpty || name.length ≤ ending.length + 1 then []
  else '.' :: ending.reverse

/-- The suffix of the last part. -/
def suffix (path : List Char) : List Char := suffixOf (lastPart path)

/-- The path with forward slashes. -/
def forward (path : List Char) : List Char := replaceChar '\\' '/' path

end Inlay.Path
