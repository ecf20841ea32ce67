import Inlay.Text.Ranges

/-!
Blank characters, and what is left of a text without them at its ends.
-/

namespace Inlay.Text

def blanks : List (Nat × Nat) :=
  [(0x9, 0xD), (0x1C, 0x20), (0x85, 0x85), (0xA0, 0xA0), (0x1680, 0x1680), (0x2000, 0x200A),
   (0x2028, 0x2029), (0x202F, 0x202F), (0x205F, 0x205F), (0x3000, 0x3000)]

def isBlank (c : Char) : Bool := within blanks c

/-- Drops what the test accepts from the end. -/
def dropEndWhile (test : Char → Bool) : List Char → List Char
  | [] => []
  | c :: rest =>
    match dropEndWhile test rest with
    | [] => if test c then [] else [c]
    | kept => c :: kept

def strip (text : List Char) : List Char := dropEndWhile isBlank (text.dropWhile isBlank)

/-- Blanks that may stand around a number: all but the information separators. -/
def isOuterBlank (c : Char) : Bool := isBlank c && !(0x1C ≤ c.toNat && c.toNat ≤ 0x1F)

/-- The text without the blanks that may stand around a number. -/
def trim (text : List Char) : List Char :=
  dropEndWhile isOuterBlank (text.dropWhile isOuterBlank)

/-- The stripped text, unless nothing is left. -/
def stripped? (text : List Char) : Option (List Char) :=
  match strip text with
  | [] => none
  | kept => some kept

/-- The longest pieces without blanks, in order. -/
def words : List Char → List (List Char)
  | [] => []
  | c :: rest =>
    if isBlank c then words rest
    else
      match rest, words rest with
      | d :: _, word :: later => if isBlank d then [c] :: word :: later else (c :: word) :: later
      | _, later => [c] :: later

/-- The words with one space between neighbours, so that the text fits on one line. -/
def singleLine (text : List Char) : List Char := [' '].intercalate (words text)

end Inlay.Text
