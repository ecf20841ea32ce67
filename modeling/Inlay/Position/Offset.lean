import Inlay.Position
import Inlay.Text.Width

/-!
Positions and offsets in a text.

A line ends with a carriage return, a line feed, or the two together. The offset between a
carriage return and its line feed has the position of the end of the line. Offsets and positions
beyond the text, past the end of a line or inside a character of two units are moved back to the
last place that exists.
-/

namespace Inlay.Text

def isBreak (c : Char) : Bool := c = '\r' || c = '\n'

/-- How far one character leads that is not part of a carriage return with a line feed. -/
def charExtent (c : Char) : Position := if isBreak c then ⟨1, 0⟩ else ⟨0, charUnits c⟩

/-- The position of an offset, counted in characters. -/
def positionAt : List Char → Nat → Position
  | [], _ => ⟨0, 0⟩
  | _, 0 => ⟨0, 0⟩
  | '\r' :: '\n' :: _, 1 => ⟨0, 0⟩
  | '\r' :: '\n' :: rest, n + 2 => Position.after ⟨1, 0⟩ (positionAt rest n)
  | c :: rest, n + 1 => (charExtent c).after (positionAt rest n)

/-- The offset of the last place that is not after the position. -/
def offsetAt : List Char → Position → Nat
  | [], _ => 0
  | '\r' :: '\n' :: rest, ⟨line + 1, character⟩ => offsetAt rest ⟨line, character⟩ + 2
  | c :: rest, ⟨line + 1, character⟩ =>
    offsetAt rest ⟨if isBreak c then line else line + 1, character⟩ + 1
  | c :: rest, ⟨0, character⟩ =>
    if isBreak c || character < charUnits c then 0
    else offsetAt rest ⟨0, character - charUnits c⟩ + 1

/-- Moves a position back to the last one that exists in the text. -/
def clampPosition (text : List Char) (p : Position) : Position :=
  positionAt text (offsetAt text p)

def endPosition (text : List Char) : Position := positionAt text text.length

end Inlay.Text
