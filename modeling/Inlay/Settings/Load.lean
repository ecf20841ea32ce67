import Inlay.Disk
import Inlay.Json.Reader
import Inlay.Settings.Configuration
import Inlay.Settings.Nest

/-!
The configuration from settings, from a settings file, and from the environment.

The environment's update delay is added to the file's settings under its full name. A setting of
that name in the file is replaced where it stands, so that a delay given later in the file by
another name still counts.

How the nested mapping is checked is left open, since a library of checks does that.
`Check.configuration` is the check that runs.
-/

namespace Inlay.Settings

open Inlay.Json (Fields)

/-- Why there is no configuration. -/
inductive Error
  | blocked (cause : Blocked)
  | faults (faults : List Fault)
  deriving DecidableEq, Repr

/-- Gives the configuration that a nested mapping describes, or tells what is wrong with it. -/
abbrev Validator := Fields → Checked Configuration

def configureBy (check : Validator) (settings : Fields) : Except Error Configuration :=
  match nest Check.settingKeys settings with
  | .error cause => .error (.blocked cause)
  | .ok nested =>
    match check nested with
    | .ok configuration => .ok configuration
    | .error faults => .error (.faults faults)

def configure (settings : Fields) : Except Error Configuration :=
  configureBy Check.configuration settings

inductive LoadError
  | unreadable (cause : ReadError)
  | notUtf8
  | notJson (cause : Json.Error)
  | notAnObject (path : String)
  | settings (cause : Error)
  deriving DecidableEq, Repr

/-- The settings that a file holds. -/
def ofFile (path : String) : Except ReadError Text.Bytes → Except LoadError Fields
  | .error cause => .error (.unreadable cause)
  | .ok bytes =>
    match Text.decode? bytes with
    | none => .error .notUtf8
    | some text =>
      match Json.parse text.toList with
      | .error cause => .error (.notJson cause)
      | .ok (.object fields) => .ok fields
      | .ok _ => .error (.notAnObject path)

/-- The full name of the delay that the environment overrides. -/
def delayKey : String := sectionName ++ ".updateDelay"

/-- The environment variable that holds an update delay. -/
def delayVariable : String := "INLINE_TYPES_UPDATE_DELAY"

/-- Adds the delay that the environment gives. -/
def withDelay (settings : Fields) : Option String → Fields
  | some delay => settings.put delayKey (.text delay)
  | none => settings

/-- The configuration of a file, if one is named, and of the environment's delay. -/
def loadBy (check : Validator) (file : Option (String × Except ReadError Text.Bytes))
    (delay : Option String) : Except LoadError Configuration :=
  let settings :=
    match file with
    | some (path, content) => ofFile path content
    | none => .ok []
  match settings with
  | .error e => .error e
  | .ok settings =>
    match configureBy check (withDelay settings delay) with
    | .ok configuration => .ok configuration
    | .error e => .error (.settings e)

def load (file : Option (String × Except ReadError Text.Bytes)) (delay : Option String) :
    Except LoadError Configuration :=
  loadBy Check.configuration file delay

end Inlay.Settings
