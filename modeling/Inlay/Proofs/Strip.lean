import Mathlib.Data.List.TakeWhile
import Inlay.Text.Blank
import Inlay.Text.Encoding

/-!
Bytes of joined texts, and blanks at the ends of a text.

What is stripped of a text does not depend on blanks that are put before or behind it, and a text
with other characters at its ends is left as it is.
-/

namespace Inlay.Text

theorem encode_of_decode? {bytes : Bytes} {text : String} (decoded : decode? bytes = some text) :
    encode text = bytes := by
  unfold decode? String.fromUTF8? at decoded
  split at decoded
  · obtain rfl := Option.some.inj decoded
    rfl
  · cases decoded

theorem encode_append (a b : String) : encode (a ++ b) = encode a ++ encode b := by
  simp [encode, String.toByteArray_append]

theorem decode?_append {a b : Bytes} {left right : String} (first : decode? a = some left)
    (second : decode? b = some right) : decode? (a ++ b) = some (left ++ right) := by
  rw [← encode_of_decode? first, ← encode_of_decode? second, ← encode_append, decode?_encode]

/-! ## Blanks at the ends of a text -/

section

variable {test : Char → Bool}

theorem dropEndWhile_eq_nil {text : List Char} (all : ∀ c ∈ text, test c = true) :
    dropEndWhile test text = [] := by
  induction text with
  | nil => rfl
  | cons c rest ih =>
    have dropped := ih fun d member => all d (List.mem_cons_of_mem c member)
    simp [dropEndWhile, dropped, all c List.mem_cons_self]

theorem dropEndWhile_append {text tail : List Char} (all : ∀ c ∈ tail, test c = true) :
    dropEndWhile test (text ++ tail) = dropEndWhile test text := by
  induction text with
  | nil => exact dropEndWhile_eq_nil all
  | cons c rest ih => simp only [List.cons_append, dropEndWhile, ih]

theorem dropEndWhile_concat {text : List Char} {c : Char} (kept : test c = false) :
    dropEndWhile test (text ++ [c]) = text ++ [c] := by
  induction text with
  | nil => simp [dropEndWhile, kept]
  | cons d rest ih =>
    rw [List.cons_append, dropEndWhile, ih]
    cases rest <;> rfl

theorem dropEndWhile_ne_nil {text : List Char} {c : Char} (member : c ∈ text)
    (kept : test c = false) : dropEndWhile test text ≠ [] := by
  induction text with
  | nil => cases member
  | cons d rest ih =>
    rw [dropEndWhile]
    split
    · next nothing =>
      rcases List.mem_cons.mp member with rfl | later
      · simp [kept]
      · exact absurd nothing (ih later)
    · exact List.cons_ne_nil _ _

theorem dropEndWhile_append_of_ne_nil (front : List Char) {text : List Char}
    (kept : dropEndWhile test text ≠ []) :
    dropEndWhile test (front ++ text) = front ++ dropEndWhile test text := by
  induction front with
  | nil => rfl
  | cons c rest ih =>
    rw [List.cons_append, dropEndWhile, ih]
    cases rest <;> cases kept' : dropEndWhile test text <;> first | rfl | exact absurd kept' kept

theorem exists_dropEndWhile_append (test : Char → Bool) (text : List Char) :
    ∃ back, (∀ c ∈ back, test c = true) ∧ text = dropEndWhile test text ++ back := by
  induction text with
  | nil => exact ⟨[], by simp, rfl⟩
  | cons c rest ih =>
    obtain ⟨back, all, same⟩ := ih
    rw [dropEndWhile]
    split
    · next nothing =>
      rw [nothing, List.nil_append] at same
      split
      · next drops => exact ⟨c :: rest, by simpa [drops, same] using all, rfl⟩
      · exact ⟨rest, same ▸ all, rfl⟩
    · exact ⟨back, all, congrArg (c :: ·) same⟩

/-- A text is left as it is if the test refuses its first and its last character. -/
theorem dropEndWhile_dropWhile {c d : Char} {inner front : List Char}
    (ends : c :: inner = front ++ [d]) (first : test c = false) (last : test d = false) :
    dropEndWhile test ((c :: inner).dropWhile test) = c :: inner := by
  have kept : (c :: inner).dropWhile test = c :: inner := by
    rw [List.dropWhile_cons, first]
    rfl
  rw [kept, ends, dropEndWhile_concat last]

end

theorem strip_eq_nil {text : List Char} (all : ∀ c ∈ text, isBlank c = true) : strip text = [] := by
  rw [strip, List.dropWhile_eq_nil_iff.mpr all]
  rfl

theorem strip_ne_nil {text : List Char} {c : Char} (member : c ∈ text)
    (kept : isBlank c = false) : strip text ≠ [] := by
  have both : c ∈ text.takeWhile isBlank ++ text.dropWhile isBlank := by
    rwa [List.takeWhile_append_dropWhile]
  rcases List.mem_append.mp both with early | late
  · have blank := List.mem_takeWhile_imp early
    simp [kept] at blank
  · exact dropEndWhile_ne_nil late kept

theorem strip_append {text tail : List Char} (all : ∀ c ∈ tail, isBlank c = true) :
    strip (text ++ tail) = strip text := by
  rw [strip, strip, List.dropWhile_append]
  split
  · next nothing =>
    rw [List.dropWhile_eq_nil_iff.mpr all, List.isEmpty_iff.mp nothing]
  · exact dropEndWhile_append all

theorem strip_dropEndWhile (text : List Char) : strip (dropEndWhile isBlank text) = strip text := by
  obtain ⟨back, blank, same⟩ := exists_dropEndWhile_append isBlank text
  have whole := congrArg strip same
  rw [strip_append blank] at whole
  exact whole.symm

theorem strip_blanks_append {front text : List Char} (all : ∀ c ∈ front, isBlank c = true) :
    strip (front ++ text) = strip text := by
  rw [strip, strip, List.dropWhile_append_of_pos all]

theorem strip_eq_self {c d : Char} {inner front : List Char} (ends : c :: inner = front ++ [d])
    (first : isBlank c = false) (last : isBlank d = false) : strip (c :: inner) = c :: inner :=
  dropEndWhile_dropWhile ends first last

theorem exists_append_strip_append (text : List Char) :
    ∃ front back, (∀ c ∈ front, isBlank c = true) ∧ (∀ c ∈ back, isBlank c = true) ∧
      text = front ++ (strip text ++ back) := by
  obtain ⟨back, blank, same⟩ := exists_dropEndWhile_append isBlank (text.dropWhile isBlank)
  refine ⟨text.takeWhile isBlank, back, fun c member => List.mem_takeWhile_imp member, blank, ?_⟩
  rw [strip, ← same, List.takeWhile_append_dropWhile]

theorem strip_strip (text : List Char) : strip (strip text) = strip text := by
  obtain ⟨front, back, blank, blank', same⟩ := exists_append_strip_append text
  have whole := congrArg strip same
  rw [strip_blanks_append blank, strip_append blank'] at whole
  exact whole.symm

theorem length_strip_le (text : List Char) : (strip text).length ≤ text.length := by
  obtain ⟨front, back, -, -, same⟩ := exists_append_strip_append text
  have := congrArg List.length same
  simp only [List.length_append] at this
  omega

theorem strip_cons_of_blank {c : Char} (blank : isBlank c = true) (text : List Char) :
    strip (c :: text) = strip text :=
  @strip_blanks_append [c] text (by simpa using blank)

theorem length_strip_lt_cons {c : Char} (kept : isBlank c = false) (text : List Char) :
    (strip text).length < (strip (c :: text)).length := by
  have first : strip (c :: text) = dropEndWhile isBlank (c :: text) := by
    rw [strip, List.dropWhile_cons_of_neg (by simp [kept])]
  by_cases nothing : strip text = []
  · rw [nothing]
    exact List.length_pos_iff.mpr (strip_ne_nil List.mem_cons_self kept)
  · -- What is dropped at the end is the same, since something is left.
    have front : (text.takeWhile isBlank ++ text.dropWhile isBlank) = text :=
      List.takeWhile_append_dropWhile
    rw [first, ← front, ← List.cons_append, dropEndWhile_append_of_ne_nil _ nothing, front,
      strip, List.length_append, List.length_cons]
    omega

theorem length_strip_le_append (front text : List Char) :
    (strip text).length ≤ (strip (front ++ text)).length := by
  induction front with
  | nil => exact Nat.le_refl _
  | cons c rest ih =>
    rw [List.cons_append]
    cases blank : isBlank c with
    | true => rwa [strip_cons_of_blank blank]
    | false => exact ih.trans (Nat.le_of_lt (length_strip_lt_cons blank _))

theorem length_strip_lt_append {front : List Char} {c : Char} (member : c ∈ front)
    (kept : isBlank c = false) (text : List Char) :
    (strip text).length < (strip (front ++ text)).length := by
  obtain ⟨first, rest, rfl⟩ := List.append_of_mem member
  rw [List.append_assoc, List.cons_append]
  exact ((length_strip_le_append rest text).trans_lt (length_strip_lt_cons kept _)).trans_le
    (length_strip_le_append first _)

end Inlay.Text
