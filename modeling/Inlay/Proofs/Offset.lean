import Mathlib.Order.Bounds.Defs
import Mathlib.Order.MinMax
import Inlay.Edit
import Inlay.Proofs.Extent

/-!
Positions and offsets are a floor pair: of the offsets outside of breaks, `offsetAt` finds the last
one whose position does not exceed the one that is asked for. What clamping leaves alone are
therefore the positions of such offsets, and clamping the range of an edit does not change what
the edit does.
-/

namespace Inlay

namespace Text

open Position

theorem not_insideBreak_zero (text : List Char) : ¬ InsideBreak text 0 := by simp [InsideBreak]

theorem not_insideBreak_length (text : List Char) : ¬ InsideBreak text text.length := by
  simp [InsideBreak]

theorem insideBreak_cons {c : Char} {rest : List Char} {n : Nat} (h : InsideBreak rest n) :
    InsideBreak (c :: rest) (n + 1) :=
  joins_cons_of_joins h

theorem insideBreak_cons_of_pos {c : Char} {rest : List Char} {n : Nat} (positive : 0 < n) :
    InsideBreak (c :: rest) (n + 1) ↔ InsideBreak rest n := by
  cases rest with
  | nil => simp [InsideBreak]
  | cons d rest =>
    cases n with
    | zero => simp at positive
    | succ n => exact joins_cons_cons c d (rest.take n) (rest.drop n)

theorem offsetAt_le_length (text : List Char) (p : Position) : offsetAt text p ≤ text.length := by
  fun_induction offsetAt text p <;> grind

/-- What the first character of a text takes away from a position that lies behind it. -/
theorem charExtent_after_le_iff (c : Char) (q p : Position) :
    (charExtent c).after q ≤ p ↔
      if isBreak c then 0 < p.line ∧ q ≤ ⟨p.line - 1, p.character⟩
      else if p.line = 0 then charUnits c ≤ p.character ∧ q ≤ ⟨0, p.character - charUnits c⟩
      else q ≤ p := by
  by_cases broken : isBreak c
  · simp only [charExtent, broken, if_true, le_def, after]
    split <;> simp only <;> omega
  · simp only [charExtent, broken, if_false, le_def, after, Bool.false_eq_true]
    split <;> split <;> simp only <;> omega

theorem joins_singleton {c : Char} {rest : List Char} :
    Joins [c] rest ↔ c = '\r' ∧ ∃ rest', rest = '\n' :: rest' := by
  simp [Joins, List.head?_eq_some_iff]

theorem outside_tail {c : Char} {rest : List Char} {n : Nat}
    (outside : ¬ InsideBreak (c :: rest) (n + 1)) : ¬ InsideBreak rest n :=
  fun inside => outside (insideBreak_cons inside)

/-- A position behind a line break is not on the first line. -/
theorem positionAt_cons_line_pos {c : Char} {rest : List Char} {n : Nat} (broken : isBreak c)
    (outside : ¬ InsideBreak (c :: rest) (n + 1)) : 0 < (positionAt (c :: rest) (n + 1)).line := by
  by_cases pair : Joins [c] rest
  · obtain ⟨rfl, rest, rfl⟩ := joins_singleton.mp pair
    cases n with
    | zero => exact absurd ⟨rfl, rfl⟩ outside
    | succ n =>
      simp only [positionAt_pair, after_line]
      omega
  · rw [positionAt_cons n pair, after_line]
    simp only [charExtent, broken, if_true]
    omega

theorem not_joins_of_plain {c : Char} (rest : List Char) (plain : isBreak c = false) :
    ¬ Joins [c] rest := by
  rw [joins_singleton]
  rintro ⟨rfl, _⟩
  simp [isBreak] at plain

/-- `offsetAt` finds the last offset outside of breaks whose position does not exceed `p`. -/
theorem positionAt_le_iff {text : List Char} {n : Nat} {p : Position} (within : n ≤ text.length)
    (outside : ¬ InsideBreak text n) : positionAt text n ≤ p ↔ n ≤ offsetAt text p := by
  fun_induction offsetAt text p generalizing n with
  | case1 p =>
    obtain rfl : n = 0 := by simpa using within
    simp [zero_le]
  | case2 rest line character ih =>
    match n with
    | 0 => simp [zero_le]
    | 1 => exact absurd ⟨rfl, rfl⟩ outside
    | n + 2 =>
      have tail := ih (n := n) (by simpa using within) (outside_tail (outside_tail outside))
      have head : Position.after ⟨1, 0⟩ (positionAt rest n) ≤ ⟨line + 1, character⟩ ↔
          positionAt rest n ≤ ⟨line, character⟩ := by
        simp only [le_def, after]
        split <;> simp only <;> omega
      rw [positionAt_pair, head, tail]
      omega
  | case3 c rest line character single ih =>
    cases n with
    | zero => simp [zero_le]
    | succ n =>
      have alone : ¬ Joins [c] rest := by
        rw [joins_singleton]
        rintro ⟨rfl, rest', rfl⟩
        exact single rest' rfl rfl
      have tail := ih (n := n) (by simpa using within) (outside_tail outside)
      rw [positionAt_cons n alone, charExtent_after_le_iff, Nat.add_le_add_iff_right, ← tail]
      split <;> simp_all
  | case4 c rest character early =>
    cases n with
    | zero => simp [zero_le]
    | succ n =>
      rw [iff_false_right (by omega), not_le]
      by_cases broken : isBreak c
      · exact Or.inl (positionAt_cons_line_pos broken outside)
      · have alone := not_joins_of_plain rest (by simpa using broken)
        have short : character < charUnits c := by simpa [broken] using early
        rw [← not_le, positionAt_cons n alone, charExtent_after_le_iff]
        simp [broken, Nat.not_le.mpr short]
  | case5 c rest character fits ih =>
    cases n with
    | zero => simp [zero_le]
    | succ n =>
      have plain : isBreak c = false ∧ charUnits c ≤ character := by simpa using fits
      have alone := not_joins_of_plain rest plain.1
      have tail := ih (n := n) (by simpa using within) (outside_tail outside)
      rw [positionAt_cons n alone, charExtent_after_le_iff, Nat.add_le_add_iff_right, ← tail]
      simp [plain]

/-- `offsetAt` never ends inside a break. -/
theorem offsetAt_outside (text : List Char) (p : Position) :
    ¬ InsideBreak text (offsetAt text p) := by
  fun_induction offsetAt text p with
  | case1 | case4 => exact not_insideBreak_zero _
  | case2 rest line character ih =>
    rw [insideBreak_cons_of_pos (by omega)]
    generalize offsetAt rest ⟨line, character⟩ = n at ih
    cases n with
    | zero => simp [InsideBreak, Joins]
    | succ n => rwa [insideBreak_cons_of_pos (by omega)]
  | case3 c rest line character single ih =>
    generalize offsetAt rest _ = n at ih
    cases n with
    | zero =>
      intro inside
      obtain ⟨rfl, rest', rfl⟩ := joins_singleton.mp inside
      exact single rest' rfl rfl
    | succ n => rwa [insideBreak_cons_of_pos (by omega)]
  | case5 c rest character fits ih =>
    generalize offsetAt rest _ = n at ih
    cases n with
    | zero =>
      intro inside
      obtain ⟨rfl, _⟩ := joins_singleton.mp inside
      simp [isBreak] at fits
    | succ n => rwa [insideBreak_cons_of_pos (by omega)]

theorem clampPosition_le (text : List Char) (p : Position) : clampPosition text p ≤ p :=
  (positionAt_le_iff (offsetAt_le_length text p) (offsetAt_outside text p)).mpr (Nat.le_refl _)

theorem positionAt_lt_positionAt {text : List Char} {m n : Nat} (before : m < n)
    (within : n ≤ text.length) (outside : ¬ InsideBreak text m) (outside' : ¬ InsideBreak text n) :
    positionAt text m < positionAt text n := by
  have split : text.take n = text.take m ++ (text.take n).drop m := by
    have cut := (List.take_append_drop m (text.take n)).symm
    rwa [List.take_take, Nat.min_eq_left (Nat.le_of_lt before)] at cut
  have nonempty : (text.take n).drop m ≠ [] := by
    intro empty
    have := congrArg List.length empty
    simp at this
    omega
  have apart : ¬ Joins (text.take m) ((text.take n).drop m) := by
    intro joined
    apply outside
    have whole : text.drop m = (text.take n).drop m ++ text.drop n := by
      rw [← List.drop_append_of_le_length (by simp; omega), List.take_append_drop]
    rw [InsideBreak, whole, joins_append_right _ nonempty]
    exact joined
  rw [positionAt_eq_endPosition_take outside, positionAt_eq_endPosition_take outside', split,
    endPosition_append apart]
  calc endPosition (text.take m) = (endPosition (text.take m)).after ⟨0, 0⟩ := rfl
    _ < _ := (after_lt_after_iff _ _ _).mpr (endPosition_pos nonempty)

theorem offsetAt_positionAt {text : List Char} {n : Nat} (within : n ≤ text.length)
    (outside : ¬ InsideBreak text n) : offsetAt text (positionAt text n) = n := by
  apply Nat.le_antisymm
  · by_contra later
    have ahead := positionAt_lt_positionAt (Nat.lt_of_not_le later)
      (offsetAt_le_length text _) outside (offsetAt_outside text _)
    exact absurd (clampPosition_le text (positionAt text n)) (not_le.mpr ahead)
  · exact (positionAt_le_iff within outside).mp (Position.le_refl _)

theorem offsetAt_clampPosition (text : List Char) (p : Position) :
    offsetAt text (clampPosition text p) = offsetAt text p :=
  offsetAt_positionAt (offsetAt_le_length text p) (offsetAt_outside text p)

theorem clampPosition_clampPosition (text : List Char) (p : Position) :
    clampPosition text (clampPosition text p) = clampPosition text p := by
  rw [clampPosition, offsetAt_clampPosition, clampPosition]

theorem offsetAt_mono (text : List Char) : Monotone (offsetAt text) := by
  intro p q le
  exact (positionAt_le_iff (offsetAt_le_length text p) (offsetAt_outside text p)).mp
    ((clampPosition_le text p).trans le)

/-- Clamping leaves alone the positions of offsets outside of breaks, and no others. -/
theorem clampPosition_eq_iff {text : List Char} {p : Position} :
    clampPosition text p = p ↔
      ∃ n, n ≤ text.length ∧ ¬ InsideBreak text n ∧ positionAt text n = p := by
  constructor
  · intro fixed
    exact ⟨offsetAt text p, offsetAt_le_length text p, offsetAt_outside text p, fixed⟩
  · rintro ⟨n, within, outside, rfl⟩
    rw [clampPosition, offsetAt_positionAt within outside]

/-- The place inside a break is taken back to the end of the line. -/
theorem positionAt_of_insideBreak {text : List Char} {n : Nat} (inside : InsideBreak text (n + 1)) :
    ¬ InsideBreak text n ∧ positionAt text (n + 1) = positionAt text n := by
  obtain ⟨a, last⟩ := List.getLast?_eq_some_iff.mp inside.1
  obtain ⟨b, first⟩ := List.head?_eq_some_iff.mp inside.2
  have whole : text = a ++ '\r' :: '\n' :: b := by
    have cut := (List.take_append_drop (n + 1) text).symm
    rwa [last, first, List.append_assoc, List.singleton_append] at cut
  have length : n = a.length := by
    have counted := congrArg List.length last
    have within : n + 1 ≤ text.length := by
      have rest := congrArg List.length first
      simp only [List.length_drop, List.length_cons] at rest
      omega
    rw [List.length_take, Nat.min_eq_left within, List.length_append] at counted
    simpa using counted
  subst whole length
  have apart : ¬ Joins a ('\r' :: '\n' :: b) := by simp [Joins]
  refine ⟨by rwa [insideBreak_append], ?_⟩
  have start := positionAt_append a ('\r' :: '\n' :: b) 0 apart
  have behind := positionAt_append a ('\r' :: '\n' :: b) 1 apart
  rw [Nat.add_zero] at start
  rw [start, behind]
  rfl

/-- Offsets beyond the text have the position of its end. -/
theorem positionAt_of_length_le {text : List Char} {n : Nat} (beyond : text.length ≤ n) :
    positionAt text n = endPosition text := by
  have outside : ¬ InsideBreak text n := by
    rw [InsideBreak, List.drop_of_length_le beyond]
    exact not_joins_nil_right _
  rw [positionAt_eq_endPosition_take outside, List.take_of_length_le beyond]

/-- Clamping leaves the position of every offset alone. -/
theorem clampPosition_positionAt (text : List Char) (n : Nat) :
    clampPosition text (positionAt text n) = positionAt text n := by
  rw [clampPosition_eq_iff]
  by_cases within : n ≤ text.length
  · by_cases inside : InsideBreak text n
    · cases n with
      | zero => exact absurd inside (not_insideBreak_zero text)
      | succ n =>
        obtain ⟨outside, same⟩ := positionAt_of_insideBreak inside
        exact ⟨n, Nat.le_of_succ_le within, outside, same.symm⟩
    · exact ⟨n, within, inside, rfl⟩
  · refine ⟨text.length, Nat.le_refl _, not_insideBreak_length text, ?_⟩
    exact (positionAt_of_length_le (Nat.le_of_not_le within)).symm

/-- Positions follow the order of the offsets. Only the offset inside a break shares its position
with another offset of the text. -/
theorem positionAt_mono (text : List Char) : Monotone (positionAt text) := by
  refine monotone_nat_of_le_succ fun n => ?_
  rcases Nat.lt_or_ge n text.length with within | beyond
  · by_cases inside : InsideBreak text (n + 1)
    · rw [(positionAt_of_insideBreak inside).2]
    · by_cases inside' : InsideBreak text n
      · cases n with
        | zero => exact absurd inside' (not_insideBreak_zero text)
        | succ n =>
          obtain ⟨outside, same⟩ := positionAt_of_insideBreak inside'
          rw [same]
          exact le_of_lt (positionAt_lt_positionAt (by omega) within outside inside)
      · exact le_of_lt (positionAt_lt_positionAt (Nat.lt_succ_self n) within inside' inside)
  · rw [positionAt_of_length_le beyond, positionAt_of_length_le (Nat.le_succ_of_le beyond)]

theorem clampPosition_mono (text : List Char) : Monotone (clampPosition text) :=
  (positionAt_mono text).comp (offsetAt_mono text)

/-- Clamping finds the last position of the text that is not after the given one. -/
theorem isGreatest_clampPosition (text : List Char) (p : Position) :
    IsGreatest {q | (∃ n, positionAt text n = q) ∧ q ≤ p} (clampPosition text p) := by
  refine ⟨⟨⟨offsetAt text p, rfl⟩, clampPosition_le text p⟩, ?_⟩
  rintro q ⟨⟨n, rfl⟩, le⟩
  rw [← clampPosition_positionAt text n]
  exact clampPosition_mono text le

theorem clampPosition_le_endPosition (text : List Char) (p : Position) :
    clampPosition text p ≤ endPosition text :=
  positionAt_mono text (offsetAt_le_length text p)

/-- Offsets and positions are an exact floor pair. Off the insides of breaks an offset of the text
is at most the offset of a position exactly if its position is at most that position, and inside a
break it has the position of the offset before. Hence going from offsets to positions and back
changes nothing, both directions keep the order, and clamping finds the last position of the text
that is not after the given one. -/
theorem offsetAt_is_floor_of_positionAt (text : List Char) :
    (∀ n ≤ text.length, ¬ InsideBreak text n →
      (∀ p, positionAt text n ≤ p ↔ n ≤ offsetAt text p) ∧
        offsetAt text (positionAt text n) = n) ∧
    (∀ n, InsideBreak text n → 0 < n ∧ positionAt text n = positionAt text (n - 1)) ∧
    (∀ p, clampPosition text (clampPosition text p) = clampPosition text p) ∧
    (∀ p, IsGreatest {q | (∃ n, positionAt text n = q) ∧ q ≤ p} (clampPosition text p)) ∧
    Monotone (clampPosition text) ∧ Monotone (offsetAt text) := by
  refine ⟨?_, ?_, clampPosition_clampPosition text, isGreatest_clampPosition text,
    clampPosition_mono text, offsetAt_mono text⟩
  · intro n within outside
    exact ⟨fun p => positionAt_le_iff within outside, offsetAt_positionAt within outside⟩
  · intro n inside
    cases n with
    | zero => exact absurd inside (not_insideBreak_zero text)
    | succ n => exact ⟨Nat.succ_pos n, (positionAt_of_insideBreak inside).2⟩

/-- A break of two characters behind a character of two units: the places on both sides of it, the
place inside it, and a column that cuts the character. -/
theorem floor_around_break :
    let text := "😀\r\nb".toList
    (positionAt text 3 ≤ ⟨1, 0⟩ ↔ 3 ≤ offsetAt text ⟨1, 0⟩) ∧
      offsetAt text (positionAt text 3) = 3 ∧ positionAt text 2 = positionAt text 1 ∧
      clampPosition text ⟨0, 1⟩ = ⟨0, 0⟩ ∧ clampPosition text ⟨0, 7⟩ = ⟨0, 2⟩ := by
  intro text
  have floor := offsetAt_is_floor_of_positionAt text
  have behind := floor.1 3 (by decide) (by decide)
  exact ⟨behind.1 ⟨1, 0⟩, behind.2, (floor.2.1 2 (by decide)).2, by decide, by decide⟩

end Text

namespace Edit

open Text

@[simp]
theorem normalize_start (text : String) (edit : Edit) :
    (edit.normalize text).start = clampPosition text.toList edit.start := rfl

@[simp]
theorem normalize_newText (text : String) (edit : Edit) :
    (edit.normalize text).newText = edit.newText := rfl

theorem normalize_stop (text : String) (edit : Edit) :
    (edit.normalize text).stop =
      max (clampPosition text.toList edit.start) (clampPosition text.toList edit.stop) :=
  Position.latest_eq_max _ _

theorem clampPosition_normalize_stop (text : String) (edit : Edit) :
    clampPosition text.toList (edit.normalize text).stop = (edit.normalize text).stop := by
  rw [normalize_stop]
  rcases max_choice (clampPosition text.toList edit.start) (clampPosition text.toList edit.stop)
    with start | stop
  · rw [start, clampPosition_clampPosition]
  · rw [stop, clampPosition_clampPosition]

theorem normalize_normalize (text : String) (edit : Edit) :
    (edit.normalize text).normalize text = edit.normalize text := by
  have start : clampPosition text.toList (edit.normalize text).start =
      (edit.normalize text).start := clampPosition_clampPosition _ _
  have stop : ((edit.normalize text).normalize text).stop = (edit.normalize text).stop := by
    rw [normalize_stop, clampPosition_normalize_stop, start]
    exact max_eq_right (edit.normalize text).ordered
  rw [Edit.mk.injEq]
  exact ⟨start, stop, rfl⟩

theorem offsetAt_normalize_stop (text : String) (edit : Edit) :
    offsetAt text.toList (edit.normalize text).stop =
      max (offsetAt text.toList edit.start) (offsetAt text.toList edit.stop) := by
  rw [normalize_stop, (offsetAt_mono text.toList).map_max, offsetAt_clampPosition,
    offsetAt_clampPosition]

/-- Clamping the range of an edit to the text does not change what the edit does. -/
theorem apply_normalize (text : String) (edit : Edit) :
    (edit.normalize text).apply text = edit.apply text := by
  simp only [apply, normalize_start, normalize_newText, offsetAt_clampPosition,
    offsetAt_normalize_stop]
  rw [Nat.max_eq_right (Nat.le_max_left _ _)]

/-- The ends of an edit keep their order when they are clamped, so they make up an edit. -/
theorem make_clampPosition (text : String) (edit : Edit) :
    make (clampPosition text.toList edit.start) (clampPosition text.toList edit.stop)
      edit.newText = .ok (edit.normalize text) := by
  have ordered := clampPosition_mono text.toList edit.ordered
  have stop : (edit.normalize text).stop = clampPosition text.toList edit.stop := by
    rw [normalize_stop, max_eq_right ordered]
  rw [make, dif_pos ordered, Except.ok.injEq, Edit.mk.injEq]
  exact ⟨rfl, stop.symm, rfl⟩

theorem apply_eq_splice (text : String) (edit : Edit) :
    edit.apply text = String.ofList (text.toList.take (offsetAt text.toList edit.start) ++
      edit.newText.toList ++ text.toList.drop (offsetAt text.toList edit.stop)) := by
  have ordered := offsetAt_mono text.toList edit.ordered
  rw [apply, Nat.max_eq_right ordered]

/-- Every edit has a clamped edit of the same effect: its ends are places of the text and stay
where they are when it is clamped again, and it puts the new text between the same two offsets. -/
theorem normalizing_keeps_effect (text : String) (edit : Edit) :
    make (clampPosition text.toList edit.start) (clampPosition text.toList edit.stop)
      edit.newText = .ok (edit.normalize text) ∧
    (edit.normalize text).normalize text = edit.normalize text ∧
    clampPosition text.toList (edit.normalize text).start = (edit.normalize text).start ∧
    clampPosition text.toList (edit.normalize text).stop = (edit.normalize text).stop ∧
    (edit.normalize text).apply text = edit.apply text ∧
    offsetAt text.toList edit.start ≤ offsetAt text.toList edit.stop ∧
    offsetAt text.toList edit.stop ≤ text.toList.length ∧
    edit.apply text = String.ofList (text.toList.take (offsetAt text.toList edit.start) ++
      edit.newText.toList ++ text.toList.drop (offsetAt text.toList edit.stop)) :=
  ⟨make_clampPosition text edit, normalize_normalize text edit,
    clampPosition_clampPosition text.toList edit.start, clampPosition_normalize_stop text edit,
    apply_normalize text edit, offsetAt_mono text.toList edit.ordered,
    offsetAt_le_length text.toList edit.stop, apply_eq_splice text edit⟩

end Edit

end Inlay
