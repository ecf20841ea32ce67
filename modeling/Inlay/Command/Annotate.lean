import Inlay.Command.Prepare
import Inlay.Render.Markup
import Inlay.Render.Table

/-!
The command that shows one file with its hints, in the text or as a table.
-/

namespace Inlay.Command

open Inlay.Text

/-- The hints of a text, from one full analysis. -/
def hintsOf (shop : Workshop) (path text : String) : List Hint :=
  let session := (Session.initial []).enter.notify (.opened path text)
  (session.flush shop).hints path

/-- The text as it is printed. -/
def printInline (text : String) (hints : List Hint) : String :=
  String.ofList (expandTabs 0 (Render.plain text.toList hints) ++ ['\n'])

/-- The table as it is printed. -/
def printTable (hints : List Hint) : String :=
  let lines := (Render.tableLines hints).map String.ofList ++
    ["(" ++ toString hints.length ++ " decorations)"]
  String.join (lines.map (· ++ "\n"))

def reportExtension (path : String) : Report :=
  let suffix := (Render.seen (Path.suffix path.toList)).filter Render.isShown
  let line := expandTabs 0 ("Unsupported file extension: ".toList ++ suffix)
  .printed 1 (String.ofList line ++ "\n")

/-- Shows a file that has been read. -/
def annotateFile (around : Surroundings) (options : AnnotateOptions) (content : Bytes) :
    Except Report String := do
  if !Language.isSupported options.path then throw (reportExtension options.path)
  let configuration ← loadConfiguration around options.config
  let oracle ← chooseOracle around options.oracle around.home
  match decode? content with
  | none => throw (.crashed .undecodable)
  | some text =>
    let shop := workshop around configuration oracle false
    let hints := hintsOf shop (around.resolve options.path) text
    return if options.asList then printTable hints else printInline text hints

/-- Shows a file. The theme chooses among colours, which plain output does not have. -/
def annotate (around : Surroundings) (options : AnnotateOptions) : Report :=
  match around.read options.path with
  | .error .directory => .refused (.isDirectory options.path)
  | .error _ => .refused (.noSuchFile options.path)
  | .ok content =>
    if (themes.lookup options.theme).isNone then
      .refused (.badChoice "--theme" (themes.map (·.1)))
    else
      match annotateFile around options content with
      | .ok text => .printed 0 text
      | .error report => report

end Inlay.Command
