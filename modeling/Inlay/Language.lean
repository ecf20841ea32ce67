import Inlay.Path
import Inlay.Text.Blank

/-!
The languages whose files get hints, by name and by the suffix of a file.
-/

namespace Inlay

open Inlay.Text

inductive Language
  | javascript
  | tsx
  | typescript
  deriving DecidableEq, Repr

namespace Language

/-- Every language, ordered by name. -/
def all : List Language := [javascript, tsx, typescript]

def name : Language → String
  | javascript => "javascript"
  | tsx => "tsx"
  | typescript => "typescript"

/-- The names under which a language is asked for. -/
def aliases : List (String × Language) :=
  [("javascript", javascript), ("javascriptreact", javascript), ("js", javascript),
   ("jsx", javascript), ("ts", typescript), ("tsx", tsx), ("typescript", typescript),
   ("typescriptreact", tsx)]

def suffixes : List (String × Language) :=
  [(".cjs", javascript), (".cts", typescript), (".js", javascript), (".jsx", javascript),
   (".mjs", javascript), (".mts", typescript), (".ts", typescript), (".tsx", tsx)]

/-- Why no language could be told. -/
inductive Error
  | unknownName (name : String)
  | unknownSuffix (suffix : String)
  | nothingGiven
  deriving DecidableEq, Repr

def Error.message : Error → String
  | .unknownName name =>
    let known := all.map fun language => "'" ++ language.name ++ "'"
    "Unsupported language '" ++ name ++ "'. Supported: [" ++ ", ".intercalate known ++ "]"
  | .unknownSuffix suffix => "Unsupported file extension: " ++ suffix
  | .nothingGiven => "Language must be provided when no file path is available."

/-- The language of a name, whatever its case and the blanks around it. -/
def ofName (given : String) : Except Error Language :=
  match aliases.lookup (String.ofList (lower (strip given.toList))) with
  | some language => .ok language
  | none => .error (.unknownName given)

/-- The suffix of a path in lower case. -/
def suffixOf (path : String) : String := String.ofList (lower (Path.suffix path.toList))

def ofPath? (path : String) : Option Language := suffixes.lookup (suffixOf path)

/-- The language of a file. -/
def ofPath (path : String) : Except Error Language :=
  match ofPath? path with
  | some language => .ok language
  | none => .error (.unknownSuffix (suffixOf path))

def isSupported (path : String) : Bool := (ofPath? path).isSome

/-- The named language, or that of the file when none is named. -/
def resolve (given path : Option String) : Except Error Language :=
  match given.filter (· != ""), path.filter (· != "") with
  | some given, _ => ofName given
  | none, some path => ofPath path
  | none, none => .error .nothingGiven

end Language

end Inlay
