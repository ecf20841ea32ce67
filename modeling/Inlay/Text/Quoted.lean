import Inlay.Text.Printable

/-!
A text as it is shown inside a message: in quotes, with everything that would not print escaped.

Single quotes are used unless the text holds a single quote and no double quote.
-/

namespace Inlay.Text

/-- A number in base sixteen with leading zeros up to the width. -/
def hex (width n : Nat) : List Char :=
  let digits := Nat.toDigits 16 n
  List.replicate (width - digits.length) '0' ++ digits

def singleQuote : Char := '\x27'

/-- The quote that surrounds the text. -/
def quoteFor (text : List Char) : Char :=
  if singleQuote ∈ text ∧ '"' ∉ text then '"' else singleQuote

/-- One character between the given quotes. -/
def escape (quote c : Char) : List Char :=
  if c = quote ∨ c = '\\' then ['\\', c]
  else if c = '\n' then ['\\', 'n']
  else if c = '\r' then ['\\', 'r']
  else if c = '\t' then ['\\', 't']
  else if isPrintable c then [c]
  else if c.toNat < 0x100 then '\\' :: 'x' :: hex 2 c.toNat
  else if c.toNat < 0x10000 then '\\' :: 'u' :: hex 4 c.toNat
  else '\\' :: 'U' :: hex 8 c.toNat

def quotedChars (text : List Char) : List Char :=
  let quote := quoteFor text
  quote :: text.flatMap (escape quote) ++ [quote]

def quoted (text : String) : String := String.ofList (quotedChars text.toList)

end Inlay.Text
