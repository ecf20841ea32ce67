import Inlay.Hint
import Inlay.Settings.Configuration

/-!
A text with its hints spliced in, the way an editor shows them.

Labels stand at offsets of the text. Where several meet, those that follow a range come before
those that precede one, and otherwise they keep the order of the hints. Control characters that
would move the cursor are left out of the text and of the labels.
-/

namespace Inlay.Render

open Inlay.Text

/-- On which side of its range a label stands. -/
inductive Side
  | after
  | before
  deriving DecidableEq, Repr

structure Label where
  offset : Nat
  side : Side
  text : List Char
  warning : Bool
  deriving DecidableEq, Repr

/-- The order of labels in the text. -/
def Label.precedes (a b : Label) : Bool :=
  a.offset < b.offset || a.offset == b.offset && (a.side == .after || b.side == .before)

/-- The labels of a hint. An empty label is none. -/
def labelsOf (text : List Char) (hint : Hint) : List Label :=
  let before : Label := ⟨offsetAt text hint.start, .before, hint.before.toList, hint.warning⟩
  let after : Label := ⟨offsetAt text hint.stop, .after, hint.after.toList, hint.warning⟩
  [before, after].filter (!·.text.isEmpty)

/-- The labels of all hints, in the order in which they stand in the text. -/
def labels (text : List Char) (hints : List Hint) : List Label :=
  (hints.flatMap (labelsOf text)).mergeSort Label.precedes

inductive Piece
  | source (text : List Char)
  | label (label : Label)
  deriving DecidableEq, Repr

/-- Cuts the rest of a text, which begins at the cursor, at the labels. -/
def splice (cursor : Nat) (rest : List Char) : List Label → List Piece
  | [] => [.source rest]
  | label :: labels =>
    let width := label.offset - cursor
    .source (rest.take width) :: .label label :: splice label.offset (rest.drop width) labels

/-- The text and its labels in order. -/
def pieces (text : List Char) (hints : List Hint) : List Piece :=
  splice 0 text (labels text hints)

/-- Whether a character is shown. -/
def isShown (c : Char) : Bool :=
  let n := c.toNat
  !(n = 7 || n = 8 || n = 11 || n = 12 || n = 13)

def Piece.text : Piece → List Char
  | .source chars => chars
  | .label mark => mark.text

/-- What is shown of a piece. -/
def Piece.shown (piece : Piece) : List Char := piece.text.filter isShown

/-- A coloured stretch of the shown text. -/
structure Span where
  start : Nat
  stop : Nat
  colour : String
  dim : Bool
  deriving DecidableEq, Repr

/-- The span of a label that is shown from a place on. -/
def spanOf (style : Style) (start : Nat) (label : Label) : Span :=
  { start
    stop := start + (label.text.filter isShown).length
    colour := Colour.canonical (style.colorFor label.warning)
    dim := style.opacity.isBelowOne }

/-- The spans of the labels among pieces that are shown from a place on. -/
def spansFrom (style : Style) (start : Nat) : List Piece → List Span
  | [] => []
  | piece :: rest =>
    let later := spansFrom style (start + piece.shown.length) rest
    match piece with
    | .source _ => later
    | .label label => spanOf style start label :: later

/-- The shown text. -/
def plain (text : List Char) (hints : List Hint) : List Char :=
  (pieces text hints).flatMap Piece.shown

/-- The coloured stretches of the shown text. -/
def spans (style : Style) (text : List Char) (hints : List Hint) : List Span :=
  spansFrom style 0 (pieces text hints)

end Inlay.Render
