import Inlay.Text.Split

/-!
The command that starts a type server: one given by the environment, the one installed with the
project, or one on the search path.

A command in the environment is split into words the way a shell does. Quotes group, a backslash
takes the next character as it is, and between double quotes only before a double quote or another
backslash. Nothing starts a comment.
-/

namespace Inlay.TypeServer

/-- Why a command cannot be split. -/
inductive SplitError
  | openQuote
  | openEscape
  deriving DecidableEq, Repr

def SplitError.message : SplitError → String
  | .openQuote => "No closing quotation"
  | .openEscape => "No escaped character"

/-- Where the splitting stands. -/
inductive Mode
  | between
  | word
  | quoted (quote : Char)
  /-- After a backslash, inside the given quotes or outside. -/
  | escaped (quote : Option Char)
  deriving DecidableEq, Repr

def isSeparator (c : Char) : Bool := c = ' ' || c = '\t' || c = '\r' || c = '\n'

def isQuote (c : Char) : Bool := c = '"' || c = '\x27'

/-- Splits a command. `current` is the word so far, the last character first. -/
def splitWords (mode : Mode) (current : List Char) :
    List Char → Except SplitError (List (List Char))
  | [] =>
    match mode with
    | .between => .ok []
    | .word => .ok [current.reverse]
    | .quoted _ => .error .openQuote
    | .escaped _ => .error .openEscape
  | c :: rest =>
    match mode with
    | .between =>
      if isSeparator c then splitWords .between [] rest
      else if c = '\\' then splitWords (.escaped none) [] rest
      else if isQuote c then splitWords (.quoted c) [] rest
      else splitWords .word [c] rest
    | .word =>
      if isSeparator c then (splitWords .between [] rest).map (current.reverse :: ·)
      else if c = '\\' then splitWords (.escaped none) current rest
      else if isQuote c then splitWords (.quoted c) current rest
      else splitWords .word (c :: current) rest
    | .quoted quote =>
      if c = quote then splitWords .word current rest
      else if c = '\\' ∧ quote = '"' then splitWords (.escaped (some quote)) current rest
      else splitWords (.quoted quote) (c :: current) rest
    | .escaped none => splitWords .word (c :: current) rest
    | .escaped (some quote) =>
      if c = '\\' ∨ c = quote then splitWords (.quoted quote) (c :: current) rest
      else splitWords (.quoted quote) (c :: '\\' :: current) rest

/-- The words of a command. -/
def commandWords (command : String) : Except SplitError (List String) :=
  (splitWords .between [] command.toList).map (·.map String.ofList)

/-- The environment variable that holds a command. -/
def commandVariable : String := "INLINE_TYPES_TSSERVER"

/-- Why no type server can be started. -/
inductive LaunchError
  | unsplittable (cause : SplitError)
  | notFound
  deriving DecidableEq, Repr

def LaunchError.message : LaunchError → String
  | .unsplittable cause => cause.message
  | .notFound => "tsserver not found; install typescript or set " ++ commandVariable

/-- Where a project's own type server is installed, seen from the project. -/
def installedAt : String := "node_modules/typescript/lib/tsserver.js"

/-- The command for a project, from the environment's command, the place of the installed server
if there is one, and that on the search path if there is one. -/
def findCommand (override installed onPath : Option String) : Except LaunchError (List String) :=
  match override.filter (· != ""), installed, onPath with
  | some command, _, _ => (commandWords command).mapError .unsplittable
  | none, some script, _ => .ok ["node", script]
  | none, none, some program => .ok [program]
  | none, none, none => .error .notFound

end Inlay.TypeServer
