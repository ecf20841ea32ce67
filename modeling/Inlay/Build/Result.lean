import Inlay.Build.Plan
import Inlay.Text.Blank

/-!
The hints of a file from the answers to its questions.

An answer without text drops its label. Labels are brought onto one line. Of hints that agree in
range and labels the first is kept. The result is ordered by start, where a hint with a label in
front comes first among equals.
-/

namespace Inlay

/-- The hints of a file, and whether its text had syntax errors. -/
structure Built where
  hints : List Hint
  hasErrors : Bool
  deriving DecidableEq, Repr

namespace Build

/-- An answer on one line, if there is anything to show. -/
def label? (answer : Option String) : Option String :=
  answer.bind fun text =>
    match Text.singleLine text.toList with
    | [] => none
    | line => some (String.ofList line)

/-- The labels in front of and behind the target. `wrapped` tells whether the parameter before
already has its parentheses. -/
def labels (wrapped : Bool) (label : String) : Shape → String × String
  | .colon => ("", ": " ++ label)
  | .cast => ("<" ++ label ++ ">", "")
  | .wrapped => ("(", ": " ++ label ++ ")")
  | .returned bare =>
    if bare && !wrapped then ("(", "): " ++ label) else ("", ": " ++ label)
  | .argument _ => (label ++ ": ", "")

/-- Whether an argument already reads like the name of its parameter. -/
def isRedundant (label : String) : Shape → Bool
  | .argument (some reading) =>
    reading == String.ofList (label.toList.dropWhile (· == '.'))
  | _ => false

/-- Names of parameters are never warnings. -/
def isWarning (features : Features) (label : String) : Shape → Bool
  | .argument _ => false
  | _ => features.enabled .highlightAny && label == "any"

def hint (features : Features) (wrapped : Bool) (ask : Ask) (label : String) :
    Except Misordered Hint :=
  let (before, after) := labels wrapped label ask.shape
  Hint.make before after ask.start ask.stop (isWarning features label ask.shape)

/-- The hints of one site from its questions and their answers. -/
def siteHints (features : Features) (wrapped : Bool) :
    List (Ask × Option String) → Except Misordered (List Hint)
  | [] => .ok []
  | (ask, answer) :: rest =>
    match label? answer with
    | none => siteHints features wrapped rest
    | some label =>
      if isRedundant label ask.shape then siteHints features wrapped rest
      else
        match hint features wrapped ask label with
        | .error e => .error e
        | .ok hint => (siteHints features (ask.shape == .wrapped) rest).map (hint :: ·)

/-- The hints of all sites, the answers given in the order of the questions. -/
def planHints (features : Features) :
    List Site → List (Option String) → Except Misordered (List Hint)
  | [], _ => .ok []
  | site :: rest, answers =>
    match siteHints features false (site.zip answers) with
    | .error e => .error e
    | .ok hints => (planHints features rest (answers.drop site.length)).map (hints ++ ·)

/-- The hints without those whose identity came before. -/
def distinct (seen : List (Position × Position × String × String)) : List Hint → List Hint
  | [] => []
  | hint :: rest =>
    if hint.identity ∈ seen then distinct seen rest
    else hint :: distinct (hint.identity :: seen) rest

/-- The order of hints: by start, those with a label in front first. -/
def precedes (a b : Hint) : Bool :=
  decide (a.start < b.start) || (a.start == b.start && (a.before != "" || b.before == ""))

/-- The result of a build from the answers to the plan's questions. -/
def finish (source : Source) (features : Features) (answers : List (Option String)) :
    Except Misordered Built :=
  (planHints features (Plan.sites source features) answers).map fun hints =>
    ⟨(distinct [] hints).mergeSort precedes, source.hasErrors⟩

end Build

/-- All hints of a file, every question put to the oracle. -/
def build (source : Source) (features : Features) (oracle : Oracle) : Except Misordered Built :=
  Build.finish source features ((Plan.queries source features).map (oracle source))

end Inlay
