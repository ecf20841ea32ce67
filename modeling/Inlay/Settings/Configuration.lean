import Inlay.Check.Coerce
import Inlay.Settings.Colour
import Inlay.Settings.Features

/-!
The settings of one service: which hints are shown, how long an update waits for more edits, and
how labels look under a light and under a dark theme.

Each record is read from a mapping. A field may be given by its name in settings or by the same
name in lower case with underscores. If both are given, the first counts and the second is not
known. All faults are reported: those of the fields in their order, then the fields that are not
known in the order in which they were given.
-/

namespace Inlay

open Inlay.Json

/-- How labels look. -/
structure Style where
  opacity : Double
  color : String
  warnColor : String
  deriving DecidableEq, Repr

namespace Style

/-- Half transparent, with red warnings. -/
def ofColor (color : String) : Style := ⟨.ofRatio false 1 2, color, "#FF2400"⟩

def colorFor (style : Style) (warning : Bool) : String :=
  if warning then style.warnColor else style.color

end Style

inductive Theme
  | light
  | dark
  deriving DecidableEq, Repr

structure Configuration where
  features : Features
  updateDelay : Nat
  light : Style
  dark : Style

namespace Configuration

def standard : Configuration := ⟨.standard, 0, .ofColor "black", .ofColor "white"⟩

def styleFor (configuration : Configuration) : Theme → Style
  | .light => configuration.light
  | .dark => configuration.dark

end Configuration

namespace Check

/-- A name with each capital letter written as an underscore and the small letter. -/
def snakeCase (name : String) : String :=
  String.ofList (name.toList.flatMap fun c => if c.isUpper then ['_', c.toLower] else [c])

/-- The value given for a field, with the name it was given by. -/
def given? (fields : Fields) (key : String) : Option (String × Json) :=
  match fields.get? key with
  | some value => some (key, value)
  | none => (fields.get? (snakeCase key)).map fun value => (snakeCase key, value)

/-- A field with a default. -/
def field {α : Type} (fields : Fields) (key : String) (default : α) (read : Json → Checked α) :
    Checked α :=
  match given? fields key with
  | some (name, value) => (read value).under name
  | none => .ok default

/-- The fields that no key accounts for, in the order given. -/
def extras (keys : List String) (fields : Fields) : List Fault :=
  let used := keys.filterMap fun key => (given? fields key).map (·.1)
  (fields.names.filter (· ∉ used)).map fun name => ⟨[name], .extra⟩

def features : Json → Checked Features
  | .object fields =>
    let read := Feature.all.map fun feature =>
      (feature, field fields feature.key (Features.standard.enabled feature) bool)
    let faults := read.flatMap (·.2.faults) ++ extras (Feature.all.map Feature.key) fields
    if faults.isEmpty then
      .ok (read.foldl (fun features (feature, value) =>
        match value with
        | .ok on => features.set feature on
        | .error _ => features) .standard)
    else .error faults
  | _ => .refuse (.notMapping "Features")

def color (value : Json) : Checked String :=
  match text value with
  | .error faults => .error faults
  | .ok given =>
    match Colour.check given with
    | .ok () => .ok given
    | .error e => .refuse (.refused e.message)

/-- A style whose colour is black where none is given. -/
def style : Json → Checked Style
  | .object fields =>
    let standard := Style.ofColor "black"
    let opacity := field fields "opacity" standard.opacity share
    let plain := field fields "color" standard.color color
    let warn := field fields "warnColor" standard.warnColor color
    let unknown := extras ["opacity", "color", "warnColor"] fields
    match opacity, plain, warn, unknown with
    | .ok opacity, .ok plain, .ok warn, [] => .ok ⟨opacity, plain, warn⟩
    | opacity, plain, warn, unknown =>
      .error (opacity.faults ++ plain.faults ++ warn.faults ++ unknown)
  | _ => .refuse (.notMapping "DecorationStyle")

/-- The names of the four settings. -/
def settingKeys : List String :=
  ["features", "updateDelay", "lightThemeDecorationStyle", "darkThemeDecorationStyle"]

def configuration (fields : Fields) : Checked Configuration :=
  let standard := Configuration.standard
  let shown := field fields "features" standard.features features
  let delay := field fields "updateDelay" standard.updateDelay natural
  let light := field fields "lightThemeDecorationStyle" standard.light style
  let dark := field fields "darkThemeDecorationStyle" standard.dark style
  let unknown := extras settingKeys fields
  match shown, delay, light, dark, unknown with
  | .ok shown, .ok delay, .ok light, .ok dark, [] => .ok ⟨shown, delay, light, dark⟩
  | shown, delay, light, dark, unknown =>
    .error (shown.faults ++ delay.faults ++ light.faults ++ dark.faults ++ unknown)

end Check

end Inlay
