import Inlay.Text.Blank
import Inlay.Text.Digit
import Inlay.Text.Quoted

/-!
Whole numbers read from text: an optional sign and digits of any script, with single underscores
between digits and blanks around the whole.

A number of more than 4300 digits is not read, whatever its value. That is found before anything
behind the digits is looked at.
-/

namespace Inlay.Whole

open Inlay.Text

/-- The most digits that a number may have. Leading zeros count. -/
def digitLimit : Nat := 4300

/-- Why a text is not read as a whole number. -/
inductive Error
  | unreadable (text : String)
  | tooManyDigits (count : Nat)
  deriving DecidableEq, Repr

/-- An unreadable text is quoted up to this many characters. -/
def quoteLimit : Nat := 200

def Error.message : Error → String
  | .unreadable text =>
    "invalid literal for int() with base 10: " ++
      String.ofList ((quotedChars text.toList).take quoteLimit)
  | .tooManyDigits count =>
    "Exceeds the limit (" ++ toString digitLimit ++
      " digits) for integer string conversion: value has " ++ toString count ++
      " digits; use sys.set_int_max_str_digits() to increase the limit"

/-- Whether the text is negative, and what follows its sign. -/
def splitSign : List Char → Bool × List Char
  | '-' :: rest => (true, rest)
  | '+' :: rest => (false, rest)
  | text => (false, text)

def signed (negative : Bool) (size : Nat) : Int := if negative then -(size : Int) else size

def isDigitOrUnderscore (c : Char) : Bool := (digit? c).isSome || c == '_'

/-- The number that a text gives. -/
def read (text : List Char) : Except Error Int :=
  let (negative, unsigned) := splitSign (trim text)
  let written := unsigned.takeWhile isDigitOrUnderscore
  let digits := written.filterMap digit?
  if written.isEmpty || !isGrouped written then .error (.unreadable (String.ofList text))
  else if digitLimit < digits.length then .error (.tooManyDigits digits.length)
  else if unsigned.dropWhile isDigitOrUnderscore ≠ [] then
    .error (.unreadable (String.ofList text))
  else .ok (signed negative (valueOf digits))

end Inlay.Whole
