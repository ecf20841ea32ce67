import Inlay.Proofs.HintOrder

/-!
Ranges of hints.

An edit moves every position, also one that does not exist in any text, to a position: no coordinate
that is computed on the way is negative. It keeps the order of positions, and so a range that is
moved is a range again. When a text is replaced as a whole, a hint is kept exactly if both its ends
are positions of the new text. That it does not end behind the text needs no test of its own.
-/

namespace Inlay

open Inlay.Text Inlay.Check

/-! ## Lines -/

namespace Text

/-- The lines of a text, without their breaks. -/
def linesOf : List Char → List (List Char)
  | [] => [[]]
  | '\r' :: '\n' :: rest => [] :: linesOf rest
  | c :: rest => if isBreak c then [] :: linesOf rest else (linesOf rest).modifyHead (c :: ·)

/-- The end of a text with these lines. -/
def endOfLines (lines : List (List Char)) : Position :=
  ⟨lines.length - 1, units (lines.getLastD [])⟩

theorem linesOf_ne_nil (text : List Char) : linesOf text ≠ [] := by
  fun_induction linesOf text with
  | case1 | case2 | case3 => exact List.cons_ne_nil _ _
  | case4 c rest single plain ih =>
    obtain ⟨first, later, lines⟩ := List.exists_cons_of_ne_nil ih
    rw [lines]
    exact List.cons_ne_nil _ _

/-- A break in front of a text puts one more line before its lines. -/
theorem endOfLines_cons {lines : List (List Char)} (nonempty : lines ≠ []) :
    endOfLines ([] :: lines) = Position.after ⟨1, 0⟩ (endOfLines lines) := by
  obtain ⟨first, later, rfl⟩ := List.exists_cons_of_ne_nil nonempty
  cases later with
  | nil => simp [endOfLines, Position.after]
  | cons second later => simp [endOfLines, Position.after, Nat.add_comm]

/-- Any other character becomes part of the first line. -/
theorem endOfLines_modifyHead (c : Char) {lines : List (List Char)} (nonempty : lines ≠ []) :
    endOfLines (lines.modifyHead (c :: ·)) =
      Position.after ⟨0, charUnits c⟩ (endOfLines lines) := by
  obtain ⟨first, later, rfl⟩ := List.exists_cons_of_ne_nil nonempty
  cases later with
  | nil => simp [endOfLines, Position.after, units]
  | cons second later => simp [endOfLines, Position.after]

theorem endPosition_eq_endOfLines (text : List Char) :
    endPosition text = endOfLines (linesOf text) := by
  have step : ∀ {c rest}, ¬ Joins [c] rest →
      endPosition (c :: rest) = (charExtent c).after (endPosition rest) :=
    fun {_ rest} alone => positionAt_cons rest.length alone
  fun_induction linesOf text with
  | case1 => rfl
  | case2 rest ih =>
    rw [endOfLines_cons (linesOf_ne_nil rest), ← ih]
    exact positionAt_pair rest rest.length
  | case3 c rest single broken ih =>
    have alone : ¬ Joins [c] rest := by
      rw [joins_singleton]
      rintro ⟨rfl, rest', rfl⟩
      exact single rest' rfl rfl
    rw [endOfLines_cons (linesOf_ne_nil rest), ← ih, step alone, charExtent, if_pos broken]
  | case4 c rest single plain ih =>
    have alone := not_joins_of_plain rest (by simpa using plain)
    rw [endOfLines_modifyHead c (linesOf_ne_nil rest), ← ih, step alone, charExtent, if_neg plain]

end Text

/-! ## Ranges that are moved -/

/-- `Edit.newEnd` from the lines of the new text, with a check of the position. -/
def Edit.newEndChecked (edit : Edit) : Reading Position :=
  match linesOf edit.newText.toList with
  | [line] => computed edit.start.line (edit.start.character + units line)
  | lines => computed (edit.start.line + lines.length - 1) (units (lines.getLastD []))

theorem Edit.newEndChecked_eq (edit : Edit) : edit.newEndChecked = .ok edit.newEnd := by
  have nonempty := linesOf_ne_nil edit.newText.toList
  rw [newEnd, endPosition_eq_endOfLines, newEndChecked]
  generalize linesOf edit.newText.toList = lines at nonempty ⊢
  rcases lines with _ | ⟨first, _ | ⟨second, later⟩⟩
  · exact absurd rfl nonempty
  · exact computed_natCast _ _
  · have more : ((edit.start.line + (first :: second :: later).length - 1 : Nat) : Int) =
        edit.start.line + (first :: second :: later).length - 1 := by
      simp only [List.length_cons]
      omega
    dsimp only
    rw [← more, computed_natCast]
    simp [endOfLines, Position.after]

/-- The ends of a hint keep their order when they are moved, so they make up a hint. -/
theorem Hint.make_remap (edit : Edit) (hint : Hint) :
    make hint.before hint.after (edit.remap hint.start) (edit.remap hint.stop) hint.warning =
      .ok (hint.remap edit) := by
  have order : edit.remap hint.start ≤ edit.remap hint.stop := edit.remap_mono hint.ordered
  rw [make, dif_pos order, Except.ok.injEq, Hint.mk.injEq]
  exact ⟨rfl, rfl, rfl, (remap_stop edit hint).symm, rfl⟩

/-- Positions are moved by edits without exception and in order. Computed with integers, from the
lines of the new text and by differences, no coordinate is negative. Positions in front of an edit
stay where they are. The range of a hint is moved to a range, so that taking the later of its two
ends changes nothing and no check refuses the hint. -/
theorem Edit.remap_total_and_monotone (edit : Edit) :
    edit.newEndChecked = .ok edit.newEnd ∧
    (∀ p, edit.remapChecked p = .ok (edit.remap p)) ∧
    (∀ p q, p ≤ q → edit.remap p ≤ edit.remap q) ∧
    (∀ p, p < edit.start → edit.remap p = p) ∧
    ∀ hint : Hint,
      Position.latest (edit.remap hint.start) (edit.remap hint.stop) = edit.remap hint.stop ∧
      Hint.make hint.before hint.after (edit.remap hint.start) (edit.remap hint.stop)
        hint.warning = .ok (hint.remap edit) ∧
      hint.remapChecked edit = .ok (hint.remap edit) :=
  ⟨edit.newEndChecked_eq, edit.remapChecked_eq, fun _ _ le => edit.remap_mono le,
    fun _ before => remap_of_lt before, fun hint =>
      ⟨hint.remap_stop edit, hint.make_remap edit, hint.remapChecked_eq edit⟩⟩

/-- A range over three lines, of which no text need exist, gives way to a text of two. Of two
positions behind it on its last line, and one on a later line, each is moved and none overtakes
another. -/
theorem Edit.remap_behind_long_range :
    let edit : Edit := ⟨⟨2, 9⟩, ⟨4, 7⟩, "ab\r\n😀", by decide⟩
    edit.newEndChecked = .ok ⟨3, 2⟩ ∧ edit.remap ⟨4, 8⟩ ≤ edit.remap ⟨5, 0⟩ ∧
      edit.remap ⟨4, 8⟩ = ⟨3, 3⟩ ∧ edit.remap ⟨5, 0⟩ = ⟨4, 0⟩ ∧ edit.remap ⟨2, 8⟩ = ⟨2, 8⟩ := by
  intro edit
  obtain ⟨newEnd, _, order, before, _⟩ := edit.remap_total_and_monotone
  have atEnd : edit.newEnd = ⟨3, 2⟩ := by decide
  exact ⟨atEnd ▸ newEnd, order ⟨4, 8⟩ ⟨5, 0⟩ (by decide), by decide, by decide,
    before ⟨2, 8⟩ (by decide)⟩

/-! ## Ranges that are kept -/

namespace Text

/-- The position is that of an offset in the text. -/
def IsPlace (text : List Char) (p : Position) : Prop := ∃ n, positionAt text n = p

/-- Offsets beyond the text add no places. -/
theorem exists_le_length_iff {text : List Char} {p : Position} :
    (∃ n, n ≤ text.length ∧ positionAt text n = p) ↔ IsPlace text p := by
  constructor
  · rintro ⟨n, _, same⟩
    exact ⟨n, same⟩
  · rintro ⟨n, rfl⟩
    rcases Nat.le_total n text.length with within | beyond
    · exact ⟨n, within, rfl⟩
    · exact ⟨text.length, Nat.le_refl _, (positionAt_of_length_le beyond).symm⟩

instance (text : List Char) (p : Position) : Decidable (IsPlace text p) :=
  decidable_of_iff _ exists_le_length_iff

theorem isPlace_iff {text : List Char} {p : Position} :
    IsPlace text p ↔ clampPosition text p = p := by
  constructor
  · rintro ⟨n, rfl⟩
    exact clampPosition_positionAt text n
  · intro fixed
    exact ⟨offsetAt text p, fixed⟩

end Text

namespace Hint

/-- A hint whose end is left alone by clamping does not end behind the text. -/
theorem stop_le_of_clamped {text : String} {hint : Hint}
    (stop : clampPosition text.toList hint.stop = hint.stop) :
    hint.stop ≤ endPosition text.toList :=
  stop ▸ clampPosition_le_endPosition text.toList hint.stop

theorem fits_iff {text : String} {hint : Hint} :
    hint.fits text = true ↔ IsPlace text.toList hint.start ∧ IsPlace text.toList hint.stop := by
  rw [isPlace_iff, isPlace_iff]
  constructor
  · exact placed_of_fits
  · rintro ⟨start, stop⟩
    simp [fits, start, stop, stop_le_of_clamped stop]

/-- Of the hints that a text had before, those are kept, as they are and in their order, of which
both ends are positions of the new text. A hint that clamping leaves alone at both ends never ends
behind the text, so this is not what it is dropped for. What was kept is kept again. -/
theorem clampAll_keeps_what_fits (text : String) (hints : List Hint) :
    clampAll text hints = hints.filter (fun hint =>
      IsPlace text.toList hint.start ∧ IsPlace text.toList hint.stop) ∧
    (∀ hint : Hint, clampPosition text.toList hint.start = hint.start →
      clampPosition text.toList hint.stop = hint.stop → hint.stop ≤ endPosition text.toList) ∧
    clampAll text (clampAll text hints) = clampAll text hints := by
  refine ⟨?_, fun hint _ stop => stop_le_of_clamped stop, ?_⟩
  · exact List.filter_congr fun hint _ => by
      rw [Bool.eq_iff_iff, fits_iff, decide_eq_true_iff]
  · rw [clampAll, clampAll, List.filter_filter]
    simp

/-- Behind a character of two units and a break of two characters: a hint inside the character, one
on the second line, one past the end of the first line and one past the last line. -/
theorem second_line_hint_is_kept :
    let hint (start stop : Position) (ordered : start ≤ stop) : Hint :=
      ⟨"", ": T", start, stop, false, ordered⟩
    let cut := hint ⟨0, 1⟩ ⟨1, 0⟩ (by decide)
    let kept := hint ⟨0, 2⟩ ⟨1, 1⟩ (by decide)
    let past := hint ⟨0, 0⟩ ⟨0, 3⟩ (by decide)
    let beyond := hint ⟨1, 1⟩ ⟨2, 0⟩ (by decide)
    clampAll "😀\r\nb" [cut, kept, past, beyond] = [kept] ∧
      clampPosition "😀\r\nb".toList kept.stop = kept.stop ∧
      kept.stop ≤ endPosition "😀\r\nb".toList := by
  intro hint cut kept past beyond
  obtain ⟨fitting, ends, _⟩ := clampAll_keeps_what_fits "😀\r\nb" [cut, kept, past, beyond]
  refine ⟨?_, by decide, ends kept (by decide) (by decide)⟩
  rw [fitting]
  decide

end Hint

end Inlay
