import Inlay.TypeServer.Framing
import Inlay.Proofs.Strip
import Inlay.Proofs.Text

/-!
Header lines, as they are written and as the reader takes them.

A line is blank, tells the length of a payload or is passed over. One that tells a length may have
blanks at its ends and before its digits, and its name in any letter case.
-/

namespace Inlay

/-! ## Names and numbers -/

open Inlay.Text

theorem Whole.splitSign_of_digit {c : Char} {rest : List Char} (low : 48 ≤ c.toNat) :
    splitSign (c :: rest) = (false, c :: rest) := by
  unfold splitSign
  split
  · next same =>
    obtain ⟨rfl, -⟩ := List.cons.inj same
    exact absurd low (by decide)
  · next same =>
    obtain ⟨rfl, -⟩ := List.cons.inj same
    exact absurd low (by decide)
  · rfl

/-- Plain digits are read as the number that they give, unless there are too many of them. -/
theorem Whole.read_plain {digits : List Char} {n : Nat} (number : plainNumber? digits = some n) :
    read digits =
      if digitLimit < digits.length then .error (.tooManyDigits digits.length) else .ok n := by
  obtain ⟨nonempty, plain, rfl⟩ := plainNumber?_eq_some number
  have values : digits.filterMap digit? = digits.map fun c => c.toNat - 48 :=
    List.filterMap_eq_map_iff_forall_eq_some.mpr fun c member =>
      digit?_of_digit (plain c member).1 (plain c member).2
  have written : ∀ c ∈ digits, isDigitOrUnderscore c = true := by
    intro c member
    rw [isDigitOrUnderscore, digit?_of_digit (plain c member).1 (plain c member).2]
    rfl
  have ungrouped : '_' ∉ digits := fun member => absurd (plain '_' member).2 (by decide)
  have grouped : isGrouped digits = true := by
    have first : digits.head? ≠ some '_' := fun head => ungrouped (List.mem_of_head? head)
    simp [isGrouped, separates_of_digits ungrouped, first]
  have trimmed : trim digits = digits := by
    have outer : ∀ c ∈ digits, isOuterBlank c = false := by
      intro c member
      rw [isOuterBlank, isBlank_of_digit (plain c member).1 (plain c member).2, Bool.false_and]
    obtain ⟨c, rest, rfl⟩ := List.exists_cons_of_ne_nil nonempty
    exact dropEndWhile_dropWhile (List.dropLast_concat_getLast nonempty).symm
      (outer c List.mem_cons_self) (outer _ (List.getLast_mem nonempty))
  have unsigned : splitSign digits = (false, digits) := by
    obtain ⟨c, rest, rfl⟩ := List.exists_cons_of_ne_nil nonempty
    exact splitSign_of_digit (plain c List.mem_cons_self).1
  simp [read, trimmed, unsigned, List.takeWhile_eq_self_iff.mpr written,
    List.dropWhile_eq_nil_iff.mpr written, values, nonempty, grouped, signed]

namespace TypeServer

/-! ## Lines -/

/-- The name of the length in any letter case has no colon, and starts with no blank. -/
theorem name_of_toLower {name : List Char}
    (named : name.map Char.toLower = "content-length".toList) :
    lower name = "content-length".toList ∧ (∀ c ∈ name, (c != ':') = true) ∧
      ∃ c rest, name = c :: rest ∧ isBlank c = false := by
  have small : ∀ c ∈ name, c.toNat < 128 := by
    intro c member
    have lowered : c.toLower ∈ "content-length".toList := named ▸ List.mem_map_of_mem member
    have table : "content-length".toList.all (·.toNat < 128) = true := by decide
    exact toNat_lt_of_toLower (by simpa using List.all_eq_true.mp table _ lowered)
  refine ⟨(lower_ascii small).trans named, ?_, ?_⟩
  · intro c member
    have lowered : c.toLower ∈ "content-length".toList := named ▸ List.mem_map_of_mem member
    by_contra colon
    obtain rfl : c = ':' := by simpa using colon
    exact absurd lowered (by decide)
  · cases name with
    | nil => cases named
    | cons c rest =>
      refine ⟨c, rest, rfl, ?_⟩
      have first : c.toLower = 'c' := (List.cons.inj named).1
      have table : ∀ n : Fin 128, (Char.ofNat n).toLower = 'c' →
          isBlank (Char.ofNat n) = false := by decide
      simpa [first] using table ⟨c.toNat, small c List.mem_cons_self⟩

/-- The line that tells a length, with blanks wherever there may be some. -/
theorem lineOf_length {indent name gap digits trail : List Char} {n : Nat}
    (blanks : ∀ c ∈ indent ++ gap ++ trail, isBlank c = true)
    (named : name.map Char.toLower = "content-length".toList)
    (number : plainNumber? digits = some n) :
    lineOf (indent ++ (name ++ ':' :: (gap ++ digits)) ++ trail) =
      if Whole.digitLimit < digits.length then
        .error (.badLength (.tooManyDigits digits.length))
      else .ok (.length n) := by
  obtain ⟨lowered, plain, c, rest, rfl, first⟩ := name_of_toLower named
  obtain ⟨nonempty, digital, -⟩ := plainNumber?_eq_some number
  have shown : ∀ d ∈ digits, isBlank d = false := fun d member =>
    isBlank_of_digit (digital d member).1 (digital d member).2
  have last := shown _ (List.getLast_mem nonempty)
  have value : strip (gap ++ digits) = digits := by
    rw [strip_blanks_append fun c member => blanks c (by simp [member])]
    obtain ⟨d, later, rfl⟩ := List.exists_cons_of_ne_nil nonempty
    exact strip_eq_self (List.dropLast_concat_getLast nonempty).symm
      (shown d List.mem_cons_self) last
  have header : strip (indent ++ (c :: rest ++ ':' :: (gap ++ digits)) ++ trail) =
      c :: rest ++ ':' :: (gap ++ digits) := by
    rw [strip_append fun c member => blanks c (by simp [member]),
      strip_blanks_append fun c member => blanks c (by simp [member])]
    have ends : c :: rest ++ ':' :: (gap ++ digits) =
        (c :: rest ++ ':' :: (gap ++ digits.dropLast)) ++ [digits.getLast nonempty] := by
      simp [List.dropLast_concat_getLast nonempty]
    exact strip_eq_self ends first last
  have front : (c :: rest ++ ':' :: (gap ++ digits)).takeWhile (· != ':') = c :: rest := by
    rw [List.takeWhile_append_of_pos plain]
    simp
  have back :
      (c :: rest ++ ':' :: (gap ++ digits)).dropWhile (· != ':') = ':' :: (gap ++ digits) := by
    rw [List.dropWhile_append_of_pos plain]
    simp
  rw [lineOf, header]
  simp only [List.cons_append] at front back ⊢
  rw [front, back, if_pos lowered, List.drop_one, List.tail_cons, value, Whole.read_plain number]
  by_cases many : Whole.digitLimit < digits.length
  · simp only [if_pos many]
  · simp only [if_neg many]

/-- A line as it is written: its bytes, and whether a carriage return stands before the line feed
that ends it. -/
structure HeaderLine where
  content : Bytes
  returns : Bool
  unbroken : 10 ∉ content

namespace HeaderLine

/-- The bytes before the line feed. -/
def upToFeed (line : HeaderLine) : Bytes := line.content ++ if line.returns then [13] else []

def bytes (line : HeaderLine) : Bytes := line.upToFeed ++ [10]

/-- The line can be read: it is UTF-8 and not too long. -/
structure Readable (line : HeaderLine) : Prop where
  decodes : ∃ text, decode? line.content = some text
  short : line.upToFeed.length ≤ lineLimit

def IsBlank (line : HeaderLine) : Prop :=
  ∃ text, decode? line.content = some text ∧ ∀ c ∈ text.toList, isBlank c = true

/-- The line is not blank and does not tell a length. -/
def IsOther (line : HeaderLine) : Prop :=
  ∀ text, decode? line.content = some text →
    (∃ c ∈ text.toList, isBlank c = false) ∧
      lower ((strip text.toList).takeWhile (· != ':')) ≠ "content-length".toList

/-- The line tells a length with the digits, under its name in any letter case. -/
def Tells (line : HeaderLine) (digits : List Char) : Prop :=
  ∃ indent name gap trail : List Char,
    (∀ c ∈ indent ++ gap ++ trail, isBlank c = true) ∧
      name.map Char.toLower = "content-length".toList ∧
      decode? line.content =
        some (String.ofList (indent ++ (name ++ ':' :: (gap ++ digits)) ++ trail))

instance (line : HeaderLine) : Decidable line.Readable :=
  decidable_of_iff ((decode? line.content).isSome = true ∧ line.upToFeed.length ≤ lineLimit)
    ⟨fun ⟨decodes, short⟩ => ⟨Option.isSome_iff_exists.mp decodes, short⟩,
     fun ⟨decodes, short⟩ => ⟨Option.isSome_iff_exists.mpr decodes, short⟩⟩

instance (line : HeaderLine) : Decidable line.IsBlank :=
  decidable_of_iff ((decode? line.content).any (·.toList.all Text.isBlank) = true)
    (by simp [IsBlank, Option.any_eq_true])

instance (line : HeaderLine) : Decidable line.IsOther :=
  decidable_of_iff
    ((decode? line.content).all (fun text => text.toList.any (!Text.isBlank ·) &&
      lower ((strip text.toList).takeWhile (· != ':')) != "content-length".toList) = true)
    (by simp [IsOther, Option.all_eq_true])

theorem readLine_eq {line : HeaderLine} {text : String} (decoded : decode? line.content = some text)
    (short : line.upToFeed.length ≤ lineLimit) :
    readLine true line.upToFeed = lineOf text.toList := by
  rw [readLine, if_neg (by omega)]
  unfold upToFeed
  cases line.returns with
  | false => simp [decoded]
  | true =>
    have whole : decode? (line.content ++ [13]) = some (text ++ "\r") :=
      decode?_append decoded (decode?_encode "\r")
    have blank : strip (text ++ "\r").toList = strip text.toList := by
      rw [String.toList_append]
      exact strip_append (List.all_eq_true.mp (by decide))
    simp only [if_true, whole]
    rw [lineOf, lineOf, blank]

theorem IsBlank.readLine_eq {line : HeaderLine} (blank : line.IsBlank) (readable : line.Readable) :
    readLine true line.upToFeed = .ok .blank := by
  obtain ⟨text, decoded, all⟩ := blank
  rw [HeaderLine.readLine_eq decoded readable.short, lineOf, strip_eq_nil all]

theorem IsOther.readLine_eq {line : HeaderLine} (other : line.IsOther) (readable : line.Readable) :
    readLine true line.upToFeed = .ok .other := by
  obtain ⟨text, decoded⟩ := readable.decodes
  obtain ⟨⟨c, member, shown⟩, named⟩ := other text decoded
  rw [HeaderLine.readLine_eq decoded readable.short, lineOf]
  split
  · next nothing => exact absurd nothing (strip_ne_nil member shown)
  · exact if_neg named

theorem Tells.readLine_eq {line : HeaderLine} {digits : List Char} {n : Nat}
    (tells : line.Tells digits) (number : plainNumber? digits = some n)
    (readable : line.Readable) :
    readLine true line.upToFeed =
      if Whole.digitLimit < digits.length then
        .error (.badLength (.tooManyDigits digits.length))
      else .ok (.length n) := by
  obtain ⟨indent, name, gap, trail, blanks, named, decoded⟩ := tells
  rw [HeaderLine.readLine_eq decoded readable.short, String.toList_ofList,
    lineOf_length blanks named number]

end HeaderLine

theorem readHeader_byte {ended : Bool} {length : Option Int} {line rest : Bytes} {byte : UInt8}
    (other : byte ≠ 10) :
    readHeader ended length line (byte :: rest) = readHeader ended length (byte :: line) rest := by
  conv_lhs => unfold readHeader
  exact if_neg other

namespace HeaderLine

variable {ended : Bool} {line : HeaderLine} {lines : List HeaderLine}

theorem unbroken_upToFeed (line : HeaderLine) : 10 ∉ line.upToFeed := by
  intro member
  rcases List.mem_append.mp member with inside | mark
  · exact line.unbroken inside
  · cases returns : line.returns <;> simp [returns] at mark

/-- The reader goes on to the line feed and looks at what stands before it. -/
theorem readHeader_eq (ended : Bool) (length : Option Int) (line : HeaderLine) (rest : Bytes) :
    readHeader ended length [] (line.bytes ++ rest) =
      match readLine true line.upToFeed, length with
      | .error e, _ => .error e
      | .ok .blank, some n => .ok (.found n rest)
      | .ok (.length n), _ => readHeader ended (some n) [] rest
      | .ok _, length => readHeader ended length [] rest := by
  -- The bytes of the line so far stand last first, so the induction is over any such start.
  have gathered : ∀ content start : Bytes, 10 ∉ content →
      readHeader ended length start (content ++ 10 :: rest) =
        readHeader ended length (content.reverse ++ start) (10 :: rest) := by
    intro content
    induction content with
    | nil => exact fun _ _ => rfl
    | cons byte content ih =>
      intro start unbroken
      have other : byte ≠ 10 := fun same => unbroken (same ▸ List.mem_cons_self)
      rw [List.cons_append, readHeader_byte other,
        ih _ fun member => unbroken (List.mem_cons_of_mem byte member)]
      simp
  have split : line.bytes ++ rest = line.upToFeed ++ 10 :: rest := by simp [bytes]
  rw [split, gathered _ _ line.unbroken_upToFeed, List.append_nil]
  conv_lhs => unfold readHeader
  rewrite [if_pos rfl, List.reverse_reverse]
  rfl

/-- Blank lines are passed over until a length is known. -/
theorem readHeader_blanks (blank : ∀ line ∈ lines, line.IsBlank)
    (readable : ∀ line ∈ lines, line.Readable) (rest : Bytes) :
    readHeader ended none [] (lines.flatMap bytes ++ rest) = readHeader ended none [] rest := by
  induction lines with
  | nil => rfl
  | cons line lines ih =>
    have here := (blank line List.mem_cons_self).readLine_eq (readable line List.mem_cons_self)
    rw [List.flatMap_cons, List.append_assoc, readHeader_eq, here]
    exact ih (fun other member => blank other (List.mem_cons_of_mem line member))
      fun other member => readable other (List.mem_cons_of_mem line member)

/-- Other headers are always passed over. -/
theorem readHeader_others (length : Option Int) (other : ∀ line ∈ lines, line.IsOther)
    (readable : ∀ line ∈ lines, line.Readable) (rest : Bytes) :
    readHeader ended length [] (lines.flatMap bytes ++ rest) = readHeader ended length [] rest := by
  induction lines with
  | nil => rfl
  | cons line lines ih =>
    have here := (other line List.mem_cons_self).readLine_eq (readable line List.mem_cons_self)
    rw [List.flatMap_cons, List.append_assoc, readHeader_eq, here]
    cases length with
    | none | some =>
      exact ih (fun other' member => other other' (List.mem_cons_of_mem line member))
        fun other' member => readable other' (List.mem_cons_of_mem line member)

end HeaderLine

end TypeServer

end Inlay
