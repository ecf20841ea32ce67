/-!
Decimal digits of every script, and the underscores that group them.
-/

namespace Inlay.Text

/-- The zeros of the decimal digit runs. Each is followed by its script's one to nine. -/
def zeros : List Nat :=
  [0x30, 0x660, 0x6F0, 0x7C0, 0x966, 0x9E6, 0xA66, 0xAE6, 0xB66, 0xBE6, 0xC66, 0xCE6, 0xD66,
   0xDE6, 0xE50, 0xED0, 0xF20, 0x1040, 0x1090, 0x17E0, 0x1810, 0x1946, 0x19D0, 0x1A80, 0x1A90,
   0x1B50, 0x1BB0, 0x1C40, 0x1C50, 0xA620, 0xA8D0, 0xA900, 0xA9D0, 0xA9F0, 0xAA50, 0xABF0, 0xFF10,
   0x104A0, 0x10D30, 0x11066, 0x110F0, 0x11136, 0x111D0, 0x112F0, 0x11450, 0x114D0, 0x11650,
   0x116C0, 0x11730, 0x118E0, 0x11950, 0x11C50, 0x11D50, 0x11DA0, 0x16A60, 0x16AC0, 0x16B50,
   0x1D7CE, 0x1D7D8, 0x1D7E2, 0x1D7EC, 0x1D7F6, 0x1E140, 0x1E2F0, 0x1E950, 0x1FBF0]

/-- The value of a decimal digit of any script. -/
def digit? (c : Char) : Option Nat :=
  (zeros.find? fun first => first ≤ c.toNat && c.toNat < first + 10).map (c.toNat - ·)

/-- The number that the values of its digits give. -/
def valueOf (digits : List Nat) : Nat := digits.foldl (fun value d => 10 * value + d) 0

/-- The value of one of the digits `0` to `9`. -/
def plainDigit? (c : Char) : Option Nat :=
  if '0' ≤ c ∧ c ≤ '9' then some (c.toNat - '0'.toNat) else none

/-- The number that plain digits give, at least one of them. -/
def plainNumber? (text : List Char) : Option Nat :=
  if !text.isEmpty && text.all (fun c => (plainDigit? c).isSome) then
    some (valueOf (text.filterMap plainDigit?))
  else none

/-- No underscore stands at the end or beside another one. -/
def separates : List Char → Bool
  | [] => true
  | ['_'] => false
  | '_' :: '_' :: _ => false
  | _ :: rest => separates rest

/-- Every underscore stands between two other characters. -/
def isGrouped (text : List Char) : Bool := text.head? != some '_' && separates text

def withoutUnderscores (text : List Char) : List Char := text.filter (· != '_')

end Inlay.Text
