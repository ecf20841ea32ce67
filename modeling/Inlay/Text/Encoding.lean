import Inlay.Text.Surrogate

/-!
Texts as bytes: in UTF-8 and UTF-16, with or without a mark at the start, or with one byte for each
character of a small set.
-/

namespace Inlay.Text

abbrev Bytes := List UInt8

inductive Encoding
  | utf8
  /-- UTF-8 in which a byte order mark at the start is no part of the text. -/
  | utf8Marked
  /-- UTF-16 with the high or the low byte of a unit first. -/
  | utf16 (highFirst : Bool)
  /-- UTF-16 in which a byte order mark at the start tells which byte is first. -/
  | utf16Marked
  | ascii
  | latin1
  | windows1252
  deriving DecidableEq, Repr

/-- Why bytes are no text. -/
inductive DecodeError
  | malformed
  /-- The byte order mark is missing. -/
  | unmarked
  deriving DecidableEq, Repr

def encode (text : String) : Bytes := text.toByteArray.data.toList

/-- The text that the bytes are the UTF-8 of, if they are well formed. -/
def decode? (bytes : Bytes) : Option String := String.fromUTF8? ⟨bytes.toArray⟩

/-- The text of one byte for each character. -/
def ofBytes (bytes : Bytes) : String := String.ofList (bytes.map fun b => Char.ofNat b.toNat)

/-- The bytes after a byte order mark, if there is one. -/
def withoutMark : Bytes → Bytes
  | 0xEF :: 0xBB :: 0xBF :: rest => rest
  | bytes => bytes

/-- The units of two bytes each. -/
def unitsOf? (highFirst : Bool) : Bytes → Option (List Nat)
  | [] => some []
  | [_] => none
  | a :: b :: rest =>
    let (high, low) := if highFirst then (a, b) else (b, a)
    (unitsOf? highFirst rest).map ((high.toNat * 256 + low.toNat) :: ·)

/-- The characters of units in which every surrogate has its partner. -/
def ofUnits? : List Nat → Option (List Char)
  | [] => some []
  | [unit] =>
    if isHighSurrogate unit || isLowSurrogate unit then none else some [Char.ofNat unit]
  | unit :: next :: rest =>
    if isHighSurrogate unit then
      if isLowSurrogate next then (ofUnits? rest).map (ofSurrogates unit next :: ·) else none
    else if isLowSurrogate unit then none
    else (ofUnits? (next :: rest)).map (Char.ofNat unit :: ·)

def decode16? (highFirst : Bool) (bytes : Bytes) : Option String :=
  ((unitsOf? highFirst bytes).bind ofUnits?).map String.ofList

/-- What the bytes 0x80 to 0x9F stand for in Windows-1252. Zero marks a byte that stands for
nothing. -/
def windowsExtras : List Nat :=
  [0x20AC, 0, 0x201A, 0x192, 0x201E, 0x2026, 0x2020, 0x2021, 0x2C6, 0x2030, 0x160, 0x2039, 0x152,
   0, 0x17D, 0, 0, 0x2018, 0x2019, 0x201C, 0x201D, 0x2022, 0x2013, 0x2014, 0x2DC, 0x2122, 0x161,
   0x203A, 0x153, 0, 0x17E, 0x178]

def windowsChar? (byte : UInt8) : Option Char :=
  if 0x80 ≤ byte && byte < 0xA0 then
    match windowsExtras[byte.toNat - 0x80]? with
    | some 0 => none
    | found => found.map Char.ofNat
  else some (Char.ofNat byte.toNat)

namespace Encoding

def orMalformed : Option String → Except DecodeError String
  | some text => .ok text
  | none => .error .malformed

def decode : Encoding → Bytes → Except DecodeError String
  | .utf8, bytes => orMalformed (decode? bytes)
  | .utf8Marked, bytes => orMalformed (decode? (withoutMark bytes))
  | .utf16 highFirst, bytes => orMalformed (decode16? highFirst bytes)
  | .utf16Marked, 0xFF :: 0xFE :: rest => orMalformed (decode16? false rest)
  | .utf16Marked, 0xFE :: 0xFF :: rest => orMalformed (decode16? true rest)
  | .utf16Marked, bytes =>
    match decode16? false bytes with
    | none => .error .malformed
    | some _ => if bytes.isEmpty then .ok "" else .error .unmarked
  | .ascii, bytes => orMalformed (if bytes.all (· < 128) then some (ofBytes bytes) else none)
  | .latin1, bytes => .ok (ofBytes bytes)
  | .windows1252, bytes => orMalformed ((bytes.mapM windowsChar?).map String.ofList)

/-- The names of encodings, in small letters and with one underscore between words. -/
def names : List (String × Encoding) :=
  [("utf_8", .utf8), ("utf8", .utf8), ("u8", .utf8), ("utf", .utf8), ("cp65001", .utf8),
   ("utf_8_sig", .utf8Marked),
   ("utf_16", .utf16Marked), ("utf16", .utf16Marked), ("u16", .utf16Marked),
   ("utf_16_le", .utf16 false), ("utf_16le", .utf16 false),
   ("utf_16_be", .utf16 true), ("utf_16be", .utf16 true),
   ("ascii", .ascii), ("us_ascii", .ascii), ("us", .ascii), ("646", .ascii),
   ("latin_1", .latin1), ("latin1", .latin1), ("latin", .latin1), ("l1", .latin1),
   ("iso_8859_1", .latin1), ("iso8859_1", .latin1), ("iso8859", .latin1), ("8859", .latin1),
   ("cp819", .latin1), ("cp1252", .windows1252), ("1252", .windows1252),
   ("windows_1252", .windows1252)]

/-- The words of a name with one underscore between them. -/
def plainName (name : List Char) : List Char :=
  let isPart := fun (c : Char) => c.isAlphanum || c == '.'
  let words := (name.map fun c => if isPart c then c.toLower else ' ').splitBy fun a b =>
    (a == ' ') == (b == ' ')
  ['_'].intercalate (words.filter (·.head? != some ' '))

/-- The encoding of a name. Letter case and the signs between words do not matter. -/
def ofName? (name : String) : Option Encoding :=
  names.lookup (String.ofList (plainName name.toList))

end Encoding

theorem decode?_encode (text : String) : decode? (encode text) = some text := by
  rw [decode?, encode, Array.toArray_toList]
  change String.fromUTF8? text.toByteArray = some text
  rw [String.fromUTF8?, dif_pos text.isValidUTF8]
  rfl

end Inlay.Text
