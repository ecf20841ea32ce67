import Inlay.Render.Inline
import Inlay.Text.Columns

/-!
Hints as a table with a row each.
-/

namespace Inlay.Render

open Inlay.Text

def headers : List String := ["start", "end", "before", "after", "warning"]

/-- A position, counted from one. -/
def showPosition (p : Position) : String := toString (p.line + 1) ++ ":" ++ toString (p.character + 1)

def showLabel (label : String) : String := String.ofList (label.toList.filter isShown)

/-- The cells of a hint. -/
def row (hint : Hint) : List String :=
  [showPosition hint.start, showPosition hint.stop, showLabel hint.before, showLabel hint.after,
   if hint.warning then "yes" else ""]

def rows (hints : List Hint) : List (List String) := hints.map row

/-- The width of each column: that of its widest cell. -/
def columnWidths (cells : List (List String)) : List Nat :=
  cells.foldl
    (fun widths row => widths.zipWith (fun width cell => max width (columns cell.toList)) row)
    (headers.map fun header => columns header.toList)

/-- The characters that draw one horizontal line. -/
structure Rule where
  left : Char
  line : Char
  cross : Char
  right : Char

def topRule : Rule := ⟨'┏', '━', '┳', '┓'⟩
def headRule : Rule := ⟨'┡', '━', '╇', '┩'⟩
def bottomRule : Rule := ⟨'└', '─', '┴', '┘'⟩

def drawRule (rule : Rule) (widths : List Nat) : List Char :=
  rule.left ::
    [rule.cross].intercalate (widths.map fun width => List.replicate (width + 2) rule.line) ++
    [rule.right]

/-- A row with a bar between its cells. -/
def drawRow (bar : Char) (widths : List Nat) (cells : List String) : List Char :=
  bar :: (widths.zipWith (fun width cell => ' ' :: padTo width cell.toList ++ [' ', bar]) cells).flatten

/-- The lines of the table. -/
def tableLines (hints : List Hint) : List (List Char) :=
  let cells := rows hints
  let widths := columnWidths cells
  [drawRule topRule widths, drawRow '┃' widths headers, drawRule headRule widths] ++
    cells.map (drawRow '│' widths) ++ [drawRule bottomRule widths]

end Inlay.Render
