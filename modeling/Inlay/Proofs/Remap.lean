import Inlay.Proofs.Offset

/-!
Edits of positions and edits of texts.

`Edit.remap` works on lines and columns and sees only the new text of an edit. It agrees with what
the edit does to the offsets of a text, unless a carriage return meets a line feed at one of the
two seams between the old text and the new. At such a seam a line is lost that `Edit.remap` still
counts, and the end of the text is moved past the end.
-/

namespace Inlay

namespace Text

open Position

theorem insideBreak_append_left {a b : List Char} {n : Nat} (before : n < a.length) :
    InsideBreak (a ++ b) n ↔ InsideBreak a n := by
  have left : (a ++ b).take n = a.take n := List.take_append_of_le_length (Nat.le_of_lt before)
  have right : (a ++ b).drop n = a.drop n ++ b :=
    List.drop_append_of_le_length (Nat.le_of_lt before)
  rw [InsideBreak, left, right, joins_append_right]
  · rfl
  · simpa using before

theorem insideBreak_append_right (a b : List Char) {n : Nat} (behind : 0 < n)
    (within : n ≤ b.length) : InsideBreak (a ++ b) (a.length + n) ↔ InsideBreak b n := by
  rw [InsideBreak, List.take_length_add_append, List.drop_length_add_append, joins_append_left]
  · rfl
  · cases b with
    | nil => simp at within; omega
    | cons c b =>
      cases n with
      | zero => simp at behind
      | succ n => simp

theorem positionAt_append_left {a : List Char} (b : List Char) {n : Nat} (before : n < a.length)
    (outside : ¬ InsideBreak a n) : positionAt (a ++ b) n = positionAt a n := by
  have outside' : ¬ InsideBreak (a ++ b) n := by rwa [insideBreak_append_left before]
  rw [positionAt_eq_endPosition_take outside', positionAt_eq_endPosition_take outside,
    List.take_append_of_le_length (Nat.le_of_lt before)]

end Text

namespace Edit

open Text

/-- Where an offset of the text is found after the edit. -/
def shift (edit : Edit) (text : String) (offset : Nat) : Nat :=
  let start := offsetAt text.toList edit.start
  let stop := offsetAt text.toList edit.stop
  if offset < start then offset
  else if offset ≤ stop then start + edit.newText.length
  else offset + edit.newText.length - (stop - start)

/-- No carriage return meets a line feed where the new text begins or where it ends. -/
def Seamless (edit : Edit) (text : String) : Prop :=
  let start := offsetAt text.toList edit.start
  ¬ InsideBreak (edit.apply text).toList start ∧
    ¬ InsideBreak (edit.apply text).toList (start + edit.newText.length)

instance (edit : Edit) (text : String) : Decidable (edit.Seamless text) :=
  inferInstanceAs (Decidable (_ ∧ _))

/-- A text cut where an edit of it begins and where it ends. -/
structure Cut (edit : Edit) (text : String) (front middle back : List Char) : Prop where
  whole : text.toList = front ++ middle ++ back
  start : offsetAt text.toList edit.start = front.length
  stop : offsetAt text.toList edit.stop = (front ++ middle).length
  startPosition : edit.start = endPosition front
  stopPosition : edit.stop = endPosition (front ++ middle)
  apart : ¬ Joins (front ++ middle) back

theorem exists_cut {edit : Edit} {text : String} (normalized : edit.normalize text = edit) :
    ∃ front middle back, Cut edit text front middle back := by
  have clampedStart : clampPosition text.toList edit.start = edit.start :=
    congrArg Edit.start normalized
  have clampedStop : clampPosition text.toList edit.stop = edit.stop := by
    rw [← normalized, clampPosition_normalize_stop]
  have order : offsetAt text.toList edit.start ≤ offsetAt text.toList edit.stop :=
    offsetAt_mono text.toList edit.ordered
  have outside := offsetAt_outside text.toList edit.start
  have outside' := offsetAt_outside text.toList edit.stop
  have within := offsetAt_le_length text.toList edit.stop
  generalize atStart : offsetAt text.toList edit.start = s at order outside
  generalize atStop : offsetAt text.toList edit.stop = e at order outside' within
  have front : text.toList.take s ++ (text.toList.take e).drop s = text.toList.take e := by
    have cut := List.take_append_drop s (text.toList.take e)
    rwa [List.take_take, Nat.min_eq_left order] at cut
  refine ⟨text.toList.take s, (text.toList.take e).drop s, text.toList.drop e, ?_, ?_, ?_, ?_, ?_,
    ?_⟩
  · rw [front, List.take_append_drop]
  · rw [atStart, List.length_take]
    omega
  · rw [front, atStop, List.length_take]
    omega
  · rw [← positionAt_eq_endPosition_take outside, ← atStart]
    exact clampedStart.symm
  · rw [front, ← positionAt_eq_endPosition_take outside', ← atStop]
    exact clampedStop.symm
  · rw [front]
    exact outside'

namespace Cut

variable {edit : Edit} {text : String} {front middle back : List Char}

theorem clampStart (cut : Cut edit text front middle back) :
    clampPosition text.toList edit.start = edit.start := by
  have outside := offsetAt_outside text.toList edit.start
  rw [clampPosition, positionAt_eq_endPosition_take outside, cut.start, cut.whole,
    List.append_assoc, List.take_left, cut.startPosition]

theorem apply (cut : Cut edit text front middle back) :
    (edit.apply text).toList = front ++ edit.newText.toList ++ back := by
  have order : front.length ≤ (front ++ middle).length := by simp
  rw [Edit.apply, cut.start, cut.stop, Nat.max_eq_right order, String.toList_ofList, cut.whole,
    List.drop_left, List.append_assoc front middle, List.take_left]

theorem seamless_iff (cut : Cut edit text front middle back) :
    edit.Seamless text ↔
      ¬ Joins front (edit.newText.toList ++ back) ∧
        ¬ Joins (front ++ edit.newText.toList) back := by
  have seam : front.length + edit.newText.length = (front ++ edit.newText.toList).length := by
    rw [List.length_append, String.length_toList]
  rw [Seamless, cut.start, cut.apply, seam, insideBreak_append, List.append_assoc,
    insideBreak_append]

theorem newEnd (cut : Cut edit text front middle back) (seamless : edit.Seamless text) :
    edit.newEnd = endPosition (front ++ edit.newText.toList) := by
  have apart : ¬ Joins front edit.newText.toList := by
    intro joined
    have nonempty : edit.newText.toList ≠ [] := by
      intro empty
      simp [empty] at joined
    exact (cut.seamless_iff.mp seamless).1 ((joins_append_right front nonempty).mpr joined)
  rw [Edit.newEnd, cut.startPosition, endPosition_append apart]

end Cut

/-- Behind the range of an edit the way from its end stays the same. -/
theorem remap_stop_after (edit : Edit) (p : Position) :
    edit.remap (edit.stop.after p) = edit.newEnd.after p := by
  have order := Position.le_def.mp edit.ordered
  by_cases there : p = ⟨0, 0⟩
  · subst there
    have late : ¬ edit.stop < edit.start := not_lt.mpr edit.ordered
    simp [remap, late]
  · have ahead : edit.stop < edit.stop.after p := by
      have positive : ⟨0, 0⟩ < p := lt_of_le_of_ne (Position.zero_le p) (Ne.symm there)
      exact (Position.after_lt_after_iff edit.stop ⟨0, 0⟩ p).mpr positive
    have late : ¬ edit.stop.after p < edit.start :=
      not_lt.mpr (le_of_lt (lt_of_le_of_lt edit.ordered ahead))
    rw [remap, if_neg late, if_neg (not_le.mpr ahead)]
    by_cases sameLine : p.line = 0
    · simp [Position.after, sameLine]
    · simp [Position.after, sameLine]

theorem remap_of_lt {edit : Edit} {p : Position} (before : p < edit.start) : edit.remap p = p := by
  rw [remap, if_pos before]

theorem remap_of_le_of_le {edit : Edit} {p : Position} (start : edit.start ≤ p)
    (stop : p ≤ edit.stop) : edit.remap p = edit.newEnd := by
  rw [remap, if_neg (not_lt.mpr start), if_pos stop]

namespace Cut

variable {edit : Edit} {text : String} {front middle back : List Char}

theorem shift_of_lt (cut : Cut edit text front middle back) {n : Nat} (before : n < front.length) :
    edit.shift text n = n := by
  simp [shift, cut.start, before]

theorem shift_of_le (cut : Cut edit text front middle back) {n : Nat} (start : front.length ≤ n)
    (stop : n ≤ (front ++ middle).length) :
    edit.shift text n = (front ++ edit.newText.toList).length := by
  simp only [shift, cut.start, cut.stop]
  rw [if_neg (Nat.not_lt.mpr start), if_pos stop, List.length_append, String.length_toList]

theorem shift_add (cut : Cut edit text front middle back) (n : Nat) :
    edit.shift text ((front ++ middle).length + n) =
      (front ++ edit.newText.toList).length + n := by
  cases n with
  | zero => exact cut.shift_of_le (by simp) (Nat.le_refl _)
  | succ n =>
    simp only [shift, cut.start, cut.stop, List.length_append, String.length_toList]
    rw [if_neg (by omega), if_neg (by omega)]
    omega

/-- Positions behind the range of a seamless edit. -/
theorem remap_add (cut : Cut edit text front middle back) (seamless : edit.Seamless text)
    (n : Nat) :
    edit.remap (positionAt text.toList ((front ++ middle).length + n)) =
      positionAt (edit.apply text).toList ((front ++ edit.newText.toList).length + n) := by
  rw [cut.whole, cut.apply, positionAt_append _ _ _ cut.apart,
    positionAt_append _ _ _ (cut.seamless_iff.mp seamless).2, ← cut.stopPosition,
    ← cut.newEnd seamless, remap_stop_after]

/-- Positions in front of an edit. -/
theorem remap_of_lt (cut : Cut edit text front middle back) {n : Nat} (before : n < front.length)
    (outside : ¬ InsideBreak text.toList n) :
    edit.remap (positionAt text.toList n) = positionAt (edit.apply text).toList n := by
  rw [cut.whole, List.append_assoc] at outside ⊢
  rw [insideBreak_append_left before] at outside
  have earlier : positionAt front n < edit.start := by
    rw [cut.startPosition]
    exact positionAt_lt_positionAt before (Nat.le_refl _) outside (not_insideBreak_length front)
  rw [cut.apply, List.append_assoc, positionAt_append_left _ before outside,
    positionAt_append_left _ before outside, Edit.remap_of_lt earlier]

/-- Positions in the range of a seamless edit. -/
theorem remap_of_le (cut : Cut edit text front middle back) (seamless : edit.Seamless text)
    {n : Nat} (start : front.length ≤ n) (stop : n ≤ (front ++ middle).length)
    (outside : ¬ InsideBreak text.toList n) :
    edit.remap (positionAt text.toList n) =
      positionAt (edit.apply text).toList (front ++ edit.newText.toList).length := by
  have within : n ≤ text.toList.length := by
    rw [cut.whole, List.length_append]
    omega
  have afterStart : edit.start ≤ positionAt text.toList n := by
    rw [← cut.clampStart, clampPosition, positionAt_le_iff (offsetAt_le_length _ _)
      (offsetAt_outside _ _), offsetAt_positionAt within outside, cut.start]
    exact start
  have beforeStop : positionAt text.toList n ≤ edit.stop := by
    rw [positionAt_le_iff within outside, cut.stop]
    exact stop
  have newEnd := positionAt_append (front ++ edit.newText.toList) back 0
    (cut.seamless_iff.mp seamless).2
  rw [remap_of_le_of_le afterStart beforeStop, cut.apply, ← Nat.add_zero (List.length _), newEnd,
    ← cut.newEnd seamless, positionAt_zero, Position.after_zero]

/-- A seamless edit moves no offset into a break or past the end. -/
theorem shift_outside (cut : Cut edit text front middle back) (seamless : edit.Seamless text)
    {n : Nat} (within : n ≤ text.toList.length) (outside : ¬ InsideBreak text.toList n) :
    edit.shift text n ≤ (edit.apply text).toList.length ∧
      ¬ InsideBreak (edit.apply text).toList (edit.shift text n) := by
  rw [cut.apply]
  rw [cut.whole] at within outside
  rcases Nat.lt_or_ge n front.length with before | start
  · rw [cut.shift_of_lt before, List.append_assoc, insideBreak_append_left before]
    rw [List.append_assoc, insideBreak_append_left before] at outside
    exact ⟨by simp only [List.length_append]; omega, outside⟩
  · rcases Nat.lt_or_ge (front ++ middle).length n with behind | stop
    · obtain ⟨k, rfl⟩ := Nat.exists_eq_add_of_le (Nat.le_of_lt behind)
      have positive : 0 < k := by omega
      have short : k ≤ back.length := by
        simp only [List.length_append] at within
        omega
      rw [cut.shift_add, insideBreak_append_right _ _ positive short]
      rw [insideBreak_append_right _ _ positive short] at outside
      exact ⟨by simp only [List.length_append]; omega, outside⟩
    · rw [cut.shift_of_le start stop, insideBreak_append]
      exact ⟨by simp only [List.length_append]; omega, (cut.seamless_iff.mp seamless).2⟩

/-- The position of an offset is moved to the position of the offset to which a seamless edit
moves it. -/
theorem remap_positionAt (cut : Cut edit text front middle back) (seamless : edit.Seamless text)
    {n : Nat} (outside : ¬ InsideBreak text.toList n) :
    edit.remap (positionAt text.toList n) =
      positionAt (edit.apply text).toList (edit.shift text n) := by
  rcases Nat.lt_or_ge n front.length with before | start
  · rw [cut.shift_of_lt before]
    exact cut.remap_of_lt before outside
  · rcases Nat.lt_or_ge (front ++ middle).length n with behind | stop
    · obtain ⟨k, rfl⟩ := Nat.exists_eq_add_of_le (Nat.le_of_lt behind)
      rw [cut.shift_add]
      exact cut.remap_add seamless k
    · rw [cut.shift_of_le start stop]
      exact cut.remap_of_le seamless start stop outside

/-- Unless an edit is seamless the text has fewer lines after it than `Edit.remap` counts. -/
theorem endPosition_line_lt (cut : Cut edit text front middle back)
    (joined : ¬ edit.Seamless text) :
    (endPosition (edit.apply text).toList).line < (edit.newEnd.after (endPosition back)).line := by
  have tail := endPosition_append_line_le edit.newText.toList back
  rw [cut.apply, Edit.newEnd, cut.startPosition, List.append_assoc]
  simp only [Position.after_line]
  by_cases first : Joins front (edit.newText.toList ++ back)
  · have lost := endPosition_append_line first
    omega
  · have second : Joins (front ++ edit.newText.toList) back := by
      by_contra apart
      exact joined (cut.seamless_iff.mpr ⟨first, apart⟩)
    have nonempty : edit.newText.toList ≠ [] := by
      intro empty
      rw [empty] at first second
      rw [List.append_nil] at second
      exact first second
    have lost := endPosition_append_line ((joins_append_left back nonempty).mp second)
    rw [endPosition_append first, Position.after_line]
    omega

end Cut

/-- Remapping agrees with applying. An edit that is clamped to a text moves the position of every
offset, the one between a carriage return and its line feed apart, to the position of the offset
to which it moves the offset. -/
theorem remap_agrees_with_apply (text : String) (edit : Edit)
    (normalized : edit.normalize text = edit) (seamless : edit.Seamless text)
    (n : Nat) (outside : ¬ InsideBreak text.toList n) :
    edit.remap (positionAt text.toList n) =
      positionAt (edit.apply text).toList (edit.shift text n) := by
  obtain ⟨front, middle, back, cut⟩ := exists_cut normalized
  exact cut.remap_positionAt seamless outside

/-- A range over one break gives way to a text with two, behind a character of two units. -/
theorem remap_agrees_behind_new_lines :
    let text := "a\r\n😀b\rcd"
    let edit : Edit := ⟨⟨1, 2⟩, ⟨2, 1⟩, "x\ny\r", by decide⟩
    edit.remap (positionAt text.toList 8) =
        positionAt (edit.apply text).toList (edit.shift text 8) ∧
      edit.remap ⟨2, 2⟩ = ⟨3, 1⟩ ∧ edit.apply text = "a\r\n😀x\ny\rd" :=
  ⟨remap_agrees_with_apply _ _ (by decide) (by decide) 8 (by decide), by decide, by decide⟩

/-- The seams decide: an edit moves every place of the text to a place of the new text exactly if
no carriage return meets a line feed at its seams. -/
theorem remap_places_iff {edit : Edit} {text : String} (normalized : edit.normalize text = edit) :
    (∀ p, clampPosition text.toList p = p →
      clampPosition (edit.apply text).toList (edit.remap p) = edit.remap p) ↔
      edit.Seamless text := by
  obtain ⟨front, middle, back, cut⟩ := exists_cut normalized
  constructor
  · intro keeps
    by_contra joined
    have lost := cut.endPosition_line_lt joined
    have atEnd : endPosition text.toList = edit.stop.after (endPosition back) := by
      rw [cut.whole, endPosition_append cut.apart, cut.stopPosition]
    have place : clampPosition text.toList (endPosition text.toList) = endPosition text.toList :=
      clampPosition_eq_iff.mpr ⟨_, Nat.le_refl _, not_insideBreak_length _, rfl⟩
    have kept := keeps _ place
    rw [atEnd, remap_stop_after] at kept
    have bound := clampPosition_le_endPosition (edit.apply text).toList
      (edit.newEnd.after (endPosition back))
    rw [kept, Position.le_def] at bound
    omega
  · intro seamless p place
    obtain ⟨n, within, outside, rfl⟩ := clampPosition_eq_iff.mp place
    have moved := cut.shift_outside seamless within outside
    rw [cut.remap_positionAt seamless outside]
    exact clampPosition_eq_iff.mpr ⟨_, moved.1, moved.2, rfl⟩

end Edit

end Inlay
