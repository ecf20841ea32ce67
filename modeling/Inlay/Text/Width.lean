/-!
Two measures of a text: 16-bit units, in which editors count columns, and bytes of UTF-8, in
which syntax trees count offsets.

A slice between two byte offsets may cut a character. A character cut at its end reads as one
replacement character, and of a character cut at its start each remaining byte reads as one.
-/

namespace Inlay.Text

/-- A character beyond the basic plane takes two units. -/
def charUnits (c : Char) : Nat := if 0xFFFF < c.toNat then 2 else 1

def units : List Char → Nat
  | [] => 0
  | c :: rest => charUnits c + units rest

def bytes : List Char → Nat
  | [] => 0
  | c :: rest => c.utf8Size + bytes rest

/-- Stands for bytes that make no whole character. -/
def replacement : Char := '�'

/-- The text before a byte offset. -/
def takeBytes : Nat → List Char → List Char
  | 0, _ => []
  | _, [] => []
  | n, c :: rest => if c.utf8Size ≤ n then c :: takeBytes (n - c.utf8Size) rest else [replacement]

/-- The text between two byte offsets. -/
def slice : (start stop : Nat) → List Char → List Char
  | _, _, [] => []
  | 0, stop, text => takeBytes stop text
  | start, stop, c :: rest =>
    if c.utf8Size ≤ start then slice (start - c.utf8Size) (stop - c.utf8Size) rest
    else
      List.replicate (min stop c.utf8Size - start) replacement ++
        takeBytes (stop - c.utf8Size) rest

end Inlay.Text
