import Inlay.Command.Options
import Inlay.Settings.Load
import Inlay.TypeServer.Launch
import Inlay.Update.Session

/-!
What both commands do first: they load the configuration and choose whom to ask about types.
-/

namespace Inlay.Command

/-- An error that nobody expects, so that the program stops. -/
inductive Crash
  | settings (cause : Settings.Blocked)
  | undecodable
  | unsplittable (cause : TypeServer.SplitError)
  | logLevel (name : String)
  | tooDeep (container : Json.Container)
  deriving DecidableEq, Repr

/-- How the program ends: with a text and an exit code, with the command line refused, or by an
error that nobody expects. -/
inductive Report
  | printed (code : Nat) (text : String)
  | refused (cause : UsageError)
  | crashed (cause : Crash)
  deriving DecidableEq, Repr

/-- What a command finds around it. `read` is the file at a path, and `server` what a type server
that was started by a command says. -/
structure Surroundings where
  home : String
  read : String → Except ReadError Text.Bytes
  environment : String → Option String
  onPath : Option String
  parser : Parser
  server : List String → Oracle

/-- An absolute path. -/
def Surroundings.resolve (around : Surroundings) (path : String) : String :=
  String.ofList (Path.resolve (Path.join around.home.toList path.toList))

def describeRead : ReadError → String
  | .absent => "no such file"
  | .directory => "is a directory"
  | .notDirectory => "not a directory"
  | .forbidden => "permission denied"

def describeFault (fault : Fault) : String :=
  ".".intercalate fault.path ++ ": " ++ fault.complaint.message

/-- How a configuration that cannot be loaded ends the program. -/
def reportLoad (path : String) : Settings.LoadError → Report
  | .settings (.faults faults) =>
    .printed 2 ("\n".intercalate ("Invalid configuration" :: faults.map describeFault) ++ "\n")
  | .settings (.blocked cause) => .crashed (.settings cause)
  | .unreadable cause => unreadable (path ++ ": " ++ describeRead cause)
  | .notUtf8 => unreadable (path ++ ": not UTF-8")
  | .notJson (.tooDeep container) => .crashed (.tooDeep container)
  | .notJson cause => unreadable (path ++ ": " ++ cause.message)
  | .notAnObject path => unreadable (path ++ ": expected a JSON object of settings")
where
  unreadable (why : String) : Report := .printed 2 ("Could not read configuration: " ++ why ++ "\n")

def loadConfiguration (around : Surroundings) (config : Option String) :
    Except Report Configuration :=
  let file := config.map fun path =>
    let tidied := String.ofList (Path.tidy path.toList)
    (tidied, around.read tidied)
  (Settings.load file (around.environment Settings.delayVariable)).mapError
    (reportLoad (config.getD ""))

/-- The command that starts a type server for a project. -/
def serverCommand (around : Surroundings) (root : String) :
    Except TypeServer.LaunchError (List String) :=
  let script := Disk.within root TypeServer.installedAt
  TypeServer.findCommand (around.environment TypeServer.commandVariable)
    (if Disk.found (around.read script) then some script else none) around.onPath

/-- Whom to ask about types in a project. -/
def chooseOracle (around : Surroundings) (name root : String) : Except Report Oracle :=
  match OracleKind.ofName name with
  | .error _ => .error (.refused (.badChoice "--oracle" (OracleKind.all.map (·.name))))
  | .ok .fileOnly => .ok Infer.oracle
  | .ok .typeServer =>
    match serverCommand around root with
    | .ok command => .ok (around.server command)
    | .error (.unsplittable cause) => .error (.crashed (.unsplittable cause))
    | .error .notFound => .error (.printed 1 (TypeServer.LaunchError.notFound.message ++ "\n"))

/-- What a service needs to work on files. -/
def workshop (around : Surroundings) (configuration : Configuration) (oracle : Oracle)
    (hasReader : Bool) : Workshop :=
  { features := configuration.features
    delay := configuration.updateDelay
    oracle
    parser := around.parser
    hasReader
    fails := fun _ => false }

end Inlay.Command
