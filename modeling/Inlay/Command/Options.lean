import Inlay.Command.Arguments
import Inlay.Settings.Configuration

/-!
The commands and their options.
-/

namespace Inlay.Command

/-- Who is asked about types: the file alone, or a type server. -/
inductive OracleKind
  | fileOnly
  | typeServer
  deriving DecidableEq, Repr

namespace OracleKind

def all : List OracleKind := [fileOnly, typeServer]

def name : OracleKind → String
  | fileOnly => "local"
  | typeServer => "tsserver"

structure Unknown where
  given : String
  deriving DecidableEq, Repr

def Unknown.message (e : Unknown) : String :=
  "Unknown oracle '" ++ e.given ++ "'. Supported: [" ++
    ", ".intercalate (all.map fun kind => "'" ++ kind.name ++ "'") ++ "]"

def ofName (given : String) : Except Unknown OracleKind :=
  match all.find? (·.name == given) with
  | some kind => .ok kind
  | none => .error ⟨given⟩

end OracleKind

def themes : List (String × Theme) := [("light", .light), ("dark", .dark)]

inductive Key
  | logLevel
  | config
  | oracle
  | theme
  | asList
  | initial
  | noInitial
  | help
  deriving DecidableEq, Repr

def helpOptions : List (OptionName Key) := [⟨"--help", .help, false⟩, ⟨"-h", .help, false⟩]

def generalOptions : List (OptionName Key) := ⟨"--log-level", .logLevel, true⟩ :: helpOptions

/-- The options that both commands have. -/
def sharedOptions : List (OptionName Key) :=
  [⟨"--config", .config, true⟩, ⟨"-c", .config, true⟩, ⟨"--oracle", .oracle, true⟩] ++ helpOptions

def annotateOptions : List (OptionName Key) :=
  [⟨"--theme", .theme, true⟩, ⟨"--list", .asList, false⟩] ++ sharedOptions

def watchOptions : List (OptionName Key) :=
  [⟨"--initial", .initial, false⟩, ⟨"--no-initial", .noInitial, false⟩] ++ sharedOptions

/-- Shows one file with its hints. -/
structure AnnotateOptions where
  path : String
  config : Option String
  oracle : String
  theme : String
  asList : Bool
  deriving DecidableEq, Repr

/-- Keeps the hints of a directory's files up to date. -/
structure WatchOptions where
  directory : String
  config : Option String
  oracle : String
  initial : Bool
  deriving DecidableEq, Repr

/-- What was asked of a command. -/
inductive Asked (α : Type)
  | help
  | run (options : α)

def wantsHelp (words : List (Word Key)) : Bool := (lastFlag? [Key.help] words).isSome

def oracleName (words : List (Word Key)) : String :=
  (valueOf? Key.oracle words).getD OracleKind.fileOnly.name

def parseAnnotate (args : List String) : Except UsageError (Asked AnnotateOptions) :=
  match readWords annotateOptions true args with
  | .error e => .error e
  | .ok words =>
    if wantsHelp words then .ok .help
    else (onlyArgument "PATH" words).map fun path => .run
      { path
        config := valueOf? Key.config words
        oracle := oracleName words
        theme := (valueOf? Key.theme words).getD "light"
        asList := (lastFlag? [Key.asList] words).isSome }

def parseWatch (args : List String) : Except UsageError (Asked WatchOptions) :=
  match readWords watchOptions true args with
  | .error e => .error e
  | .ok words =>
    if wantsHelp words then .ok .help
    else (onlyArgument "DIRECTORY" words).map fun directory => .run
      { directory
        config := valueOf? Key.config words
        oracle := oracleName words
        initial := (lastFlag? [Key.initial, .noInitial] words) != some .noInitial }

inductive CommandName
  | annotate
  | watch
  deriving DecidableEq, Repr

def commandNames : List (String × CommandName) := [("annotate", .annotate), ("watch", .watch)]

/-- A command line up to the command's own words. -/
structure Opening where
  logLevel : String
  command : CommandName
  rest : List String
  deriving DecidableEq, Repr

/-- Reads a command line as far as the name of the command. -/
def parseOpening (args : List String) : Except UsageError (Asked Opening) :=
  match readWords generalOptions false args with
  | .error e => .error e
  | .ok words =>
    if wantsHelp words then .ok .help
    else
      match argumentsOf words with
      | [] => .error .missingCommand
      | name :: rest =>
        match commandNames.lookup name with
        | none => .error (.noSuchCommand name)
        | some command =>
          .ok (.run { logLevel := (valueOf? Key.logLevel words).getD "WARNING", command, rest })

/-- The names of log levels, which are taken in any letter case. -/
def logLevels : List String :=
  ["CRITICAL", "FATAL", "ERROR", "WARN", "WARNING", "INFO", "DEBUG", "NOTSET"]

def isLogLevel (name : String) : Bool := logLevels.contains name.toUpper

end Inlay.Command
