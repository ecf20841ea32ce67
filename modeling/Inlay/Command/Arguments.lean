import Inlay.Text.Split

/-!
The words of a command line: options, flags and arguments.

A long option takes its value after an equals sign or from the next word. Short options can stand
together behind one dash, and one that takes a value takes the rest of the word or the next one.
After two dashes all words are arguments.
-/

namespace Inlay.Command

open Inlay.Text

/-- Why a command line is not understood. -/
inductive UsageError
  | noSuchOption (name : String)
  | missingValue (name : String)
  | needlessValue (name : String)
  | missingCommand
  | noSuchCommand (name : String)
  | missingArgument (name : String)
  | extraArgument (text : String)
  | noSuchFile (path : String)
  | isDirectory (path : String)
  | isFile (path : String)
  | badChoice (option : String) (choices : List String)
  deriving DecidableEq, Repr

def UsageError.message : UsageError → String
  | .noSuchOption name => "No such option: " ++ name
  | .missingValue name => "Option " ++ name ++ " requires an argument."
  | .needlessValue name => "Option " ++ name ++ " does not take a value."
  | .missingCommand => "Missing command."
  | .noSuchCommand name => "No such command: " ++ name
  | .missingArgument name => "Missing argument: " ++ name
  | .extraArgument text => "Got unexpected extra argument: " ++ text
  | .noSuchFile path => "Path does not exist: " ++ path
  | .isDirectory path => "Path is a directory: " ++ path
  | .isFile path => "Path is a file: " ++ path
  | .badChoice option choices => "For " ++ option ++ ", expected one of " ++ ", ".intercalate choices

/-- An option by its name, its meaning and whether it takes a value. -/
structure OptionName (κ : Type) where
  name : String
  key : κ
  takesValue : Bool

inductive Word (κ : Type)
  | flag (key : κ)
  | value (key : κ) (text : String)
  | argument (text : String)

variable {κ : Type}

def findOption? (options : List (OptionName κ)) (name : String) : Option (OptionName κ) :=
  options.find? (·.name == name)

/-- What one word of options gives, and the option that takes the next word, if there is one. -/
abbrev Read (κ : Type) := List (Word κ) × Option (OptionName κ)

/-- The options behind one dash. -/
def readShort (options : List (OptionName κ)) : List Char → Except UsageError (Read κ)
  | [] => .ok ([], none)
  | c :: rest =>
    let name := String.ofList ['-', c]
    match findOption? options name with
    | none => .error (.noSuchOption name)
    | some option =>
      if option.takesValue then
        if rest.isEmpty then .ok ([], some option)
        else .ok ([.value option.key (String.ofList rest)], none)
      else (readShort options rest).map fun (words, next) => (.flag option.key :: words, next)

/-- A long option, with its value if an equals sign gives one. -/
def readLong (options : List (OptionName κ)) (word : List Char) : Except UsageError (Read κ) :=
  let name := String.ofList (word.takeWhile (· != '='))
  let given := (cutAt? ['='] word).map fun (_, value) => String.ofList value
  match findOption? options name, given with
  | none, _ => .error (.noSuchOption name)
  | some option, none =>
    .ok (if option.takesValue then ([], some option) else ([.flag option.key], none))
  | some option, some value =>
    if option.takesValue then .ok ([.value option.key value], none)
    else .error (.needlessValue name)

def readOptions (options : List (OptionName κ)) (word : String) : Except UsageError (Read κ) :=
  match word.toList with
  | '-' :: '-' :: rest => readLong options ('-' :: '-' :: rest)
  | _ :: rest => readShort options rest
  | [] => .ok ([], none)

/-- Whether a word gives options. A dash alone is an argument. -/
def isOptionWord (word : String) : Bool :=
  match word.toList with
  | '-' :: _ :: _ => true
  | _ => false

/-- Reads the words of a command line. Unless `mixed`, options end at the first argument. -/
def readWords (options : List (OptionName κ)) (mixed : Bool) :
    List String → Except UsageError (List (Word κ))
  | [] => .ok []
  | word :: rest =>
    if word = "--" then .ok (rest.map .argument)
    else if !isOptionWord word then
      if mixed then (readWords options mixed rest).map (.argument word :: ·)
      else .ok (.argument word :: rest.map .argument)
    else
      match readOptions options word, rest with
      | .error e, _ => .error e
      | .ok (words, none), rest => (readWords options mixed rest).map (words ++ ·)
      | .ok (_, some option), [] => .error (.missingValue option.name)
      | .ok (words, some option), value :: rest =>
        (readWords options mixed rest).map (words ++ .value option.key value :: ·)

def argumentsOf (words : List (Word κ)) : List String :=
  words.filterMap fun word =>
    match word with
    | .argument text => some text
    | _ => none

/-- The value that was given last for an option. -/
def valueOf? [BEq κ] (key : κ) (words : List (Word κ)) : Option String :=
  (words.reverse.findSome? fun word =>
    match word with
    | .value k text => if k == key then some text else none
    | _ => none)

/-- The flag that was given last among those listed. -/
def lastFlag? [BEq κ] (keys : List κ) (words : List (Word κ)) : Option κ :=
  words.reverse.findSome? fun word =>
    match word with
    | .flag k => if keys.contains k then some k else none
    | _ => none

/-- The only argument. -/
def onlyArgument (name : String) (words : List (Word κ)) : Except UsageError String :=
  match argumentsOf words with
  | [] => .error (.missingArgument name)
  | [text] => .ok text
  | _ :: text :: _ => .error (.extraArgument text)

end Inlay.Command
