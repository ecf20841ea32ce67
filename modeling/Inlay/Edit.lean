import Inlay.Position.Offset

/-!
Edits of a text: a range is replaced by new text.

An edit acts on texts, where its range is clamped to the text, and on positions, where it says at
which position a place is found afterwards. Places inside the replaced range move to the end of
the new text.
-/

namespace Inlay

open Inlay.Text

/-- A range whose end comes before its start. -/
structure Misordered where
  start : Position
  stop : Position
  deriving DecidableEq, Repr

def Misordered.message (m : Misordered) : String :=
  "end " ++ m.stop.text ++ " precedes start " ++ m.start.text

/-- Replaces the text from `start` up to `stop`. -/
structure Edit where
  start : Position
  stop : Position
  newText : String
  ordered : start ≤ stop
  deriving DecidableEq, Repr

namespace Edit

def make (start stop : Position) (newText : String) : Except Misordered Edit :=
  if ordered : start ≤ stop then .ok ⟨start, stop, newText, ordered⟩ else .error ⟨start, stop⟩

/-- Puts text in at a position. -/
def insert (place : Position) (text : String) : Edit :=
  ⟨place, place, text, Position.le_refl place⟩

/-- Takes the text of a range out. -/
def delete (start stop : Position) : Except Misordered Edit := make start stop ""

/-- The edit with its range clamped to the text. -/
def normalize (text : String) (edit : Edit) : Edit :=
  let start := clampPosition text.toList edit.start
  let stop := clampPosition text.toList edit.stop
  ⟨start, Position.latest start stop, edit.newText, Position.le_latest_left start stop⟩

/-- The text after the edit. -/
def apply (text : String) (edit : Edit) : String :=
  let start := offsetAt text.toList edit.start
  let stop := max start (offsetAt text.toList edit.stop)
  String.ofList (text.toList.take start ++ edit.newText.toList ++ text.toList.drop stop)

def applyAll (text : String) (edits : List Edit) : String := edits.foldl apply text

/-- The position right after the new text. -/
def newEnd (edit : Edit) : Position := edit.start.after (endPosition edit.newText.toList)

/-- Where a position is found after the edit. -/
def remap (edit : Edit) (p : Position) : Position :=
  if p < edit.start then p
  else if p ≤ edit.stop then edit.newEnd
  else if p.line = edit.stop.line then
    ⟨edit.newEnd.line, edit.newEnd.character + (p.character - edit.stop.character)⟩
  else ⟨edit.newEnd.line + (p.line - edit.stop.line), p.character⟩

end Edit

end Inlay
