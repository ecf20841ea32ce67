import Mathlib.Order.Lattice
import Inlay.Position.Offset

/-!
Extents of texts.

Positions are ordered, and `Position.after` makes them a monoid. The end position of a text is a
homomorphism from texts to this monoid as long as no line break is cut: where a carriage return
and a line feed meet, two breaks become one and exactly one line is lost.
-/

namespace Inlay

namespace Position

@[ext]
theorem ext {p q : Position} (line : p.line = q.line) (character : p.character = q.character) :
    p = q := by
  cases p
  cases q
  simp_all

instance : LinearOrder Position where
  le_refl := le_refl
  le_trans p q r hpq hqr := by
    simp only [le_def] at *
    omega
  le_antisymm p q hpq hqp := by
    simp only [le_def] at *
    apply Position.ext <;> omega
  le_total p q := by
    simp only [le_def]
    omega
  lt_iff_le_not_ge p q := by
    simp only [le_def, lt_def]
    omega
  toDecidableLE := fun p q => inferInstance

@[simp]
theorem zero_after (p : Position) : Position.after ⟨0, 0⟩ p = p := by
  unfold after
  split
  · next h => ext <;> simp [h]
  · simp

@[simp]
theorem after_zero (p : Position) : p.after ⟨0, 0⟩ = p := rfl

@[simp]
theorem after_line (p q : Position) : (p.after q).line = p.line + q.line := by
  unfold after
  split
  · next h => simp [h]
  · rfl

theorem after_assoc (p q r : Position) : (p.after q).after r = p.after (q.after r) := by
  by_cases hq : q.line = 0 <;> by_cases hr : r.line = 0 <;> simp [after, hq, hr] <;> omega

/-- Going on from a later place leads to a later place. -/
theorem after_le_after_iff (p q r : Position) : p.after q ≤ p.after r ↔ q ≤ r := by
  by_cases hq : q.line = 0 <;> by_cases hr : r.line = 0 <;> simp [after, le_def, hq, hr]
  omega

theorem after_lt_after_iff (p q r : Position) : p.after q < p.after r ↔ q < r := by
  rw [← not_le, ← not_le, after_le_after_iff]

theorem zero_le (p : Position) : ⟨0, 0⟩ ≤ p := by
  simp only [le_def]
  omega

theorem latest_eq_max (p q : Position) : latest p q = max p q := by
  unfold latest
  split
  · next h => exact (max_eq_right (le_of_lt h)).symm
  · next h => exact (max_eq_left (not_lt.mp h)).symm

end Position

namespace Text

open Position

/-- A carriage return and a line feed meet where two texts are put together. -/
def Joins (a b : List Char) : Prop := a.getLast? = some '\r' ∧ b.head? = some '\n'

instance (a b : List Char) : Decidable (Joins a b) :=
  inferInstanceAs (Decidable (a.getLast? = some '\r' ∧ b.head? = some '\n'))

/-- The offset lies between a carriage return and its line feed. -/
def InsideBreak (text : List Char) (offset : Nat) : Prop :=
  Joins (text.take offset) (text.drop offset)

instance (text : List Char) (offset : Nat) : Decidable (InsideBreak text offset) :=
  inferInstanceAs (Decidable (Joins (text.take offset) (text.drop offset)))

@[simp]
theorem not_joins_nil (b : List Char) : ¬ Joins [] b := by simp [Joins]

@[simp]
theorem not_joins_nil_right (a : List Char) : ¬ Joins a [] := by simp [Joins]

theorem joins_cons_cons (c d : Char) (a b : List Char) :
    Joins (c :: d :: a) b ↔ Joins (d :: a) b := by
  simp [Joins, List.getLast?_cons_cons]

theorem joins_cons_of_joins {c : Char} {a b : List Char} (h : Joins a b) : Joins (c :: a) b := by
  cases a with
  | nil => simp at h
  | cons d a => exact (joins_cons_cons c d a b).mpr h

theorem joins_append_left {a b : List Char} (c : List Char) (nonempty : b ≠ []) :
    Joins (a ++ b) c ↔ Joins b c := by
  simp [Joins, List.getLast?_append, List.getLast?_eq_some_getLast nonempty]

theorem joins_append_right {b c : List Char} (a : List Char) (nonempty : b ≠ []) :
    Joins a (b ++ c) ↔ Joins a b := by
  obtain ⟨d, b, rfl⟩ := List.exists_cons_of_ne_nil nonempty
  simp [Joins]

@[simp]
theorem insideBreak_append (a b : List Char) : InsideBreak (a ++ b) a.length ↔ Joins a b := by
  simp [InsideBreak]

/-- A character that does not begin a carriage return with its line feed stands for itself. -/
theorem positionAt_cons {c : Char} {rest : List Char} (n : Nat) (alone : ¬ Joins [c] rest) :
    positionAt (c :: rest) (n + 1) = (charExtent c).after (positionAt rest n) := by
  rw [positionAt]
  · rintro rest' rfl rfl
    exact (alone ⟨rfl, rfl⟩).elim
  · rintro rest' n' rfl rfl
    exact (alone ⟨rfl, rfl⟩).elim

theorem positionAt_pair (rest : List Char) (n : Nat) :
    positionAt ('\r' :: '\n' :: rest) (n + 2) = Position.after ⟨1, 0⟩ (positionAt rest n) := by
  rw [positionAt]

@[simp]
theorem positionAt_zero (text : List Char) : positionAt text 0 = ⟨0, 0⟩ := by
  cases text <;> rfl

/-- The second of two texts begins at the end of the first, unless they meet inside a break. -/
theorem positionAt_append : ∀ (a b : List Char) (n : Nat), ¬ Joins a b →
    positionAt (a ++ b) (a.length + n) = (endPosition a).after (positionAt b n)
  | [], b, n, _ => by simp [endPosition]
  | [c], b, n, apart => by
    have single : endPosition [c] = charExtent c := positionAt_cons 0 (by simp)
    rw [List.length_singleton, Nat.add_comm, single]
    exact positionAt_cons n apart
  | c :: d :: rest, b, n, apart => by
    have tail : ¬ Joins (d :: rest) b := by rwa [← joins_cons_cons c]
    by_cases pair : Joins [c] (d :: rest)
    · obtain ⟨rfl, rfl⟩ : c = '\r' ∧ d = '\n' := by simpa [Joins] using pair
      have apart' : ¬ Joins rest b := fun h => tail (joins_cons_of_joins h)
      have whole : endPosition ('\r' :: '\n' :: rest) = Position.after ⟨1, 0⟩ (endPosition rest) :=
        positionAt_pair rest rest.length
      have shift : ('\r' :: '\n' :: rest).length + n = rest.length + n + 2 := by
        simp only [List.length_cons]
        omega
      rw [shift, List.cons_append, List.cons_append, positionAt_pair,
        positionAt_append rest b n apart', whole, after_assoc]
    · have pair' : ¬ Joins [c] (d :: rest ++ b) := by
        rwa [joins_append_right [c] (List.cons_ne_nil d rest)]
      have whole : endPosition (c :: d :: rest) = (charExtent c).after (endPosition (d :: rest)) :=
        positionAt_cons (d :: rest).length pair
      have shift : (c :: d :: rest).length + n = (d :: rest).length + n + 1 := by
        simp only [List.length_cons]
        omega
      rw [shift, List.cons_append, positionAt_cons _ pair',
        positionAt_append (d :: rest) b n tail, whole, after_assoc]

theorem endPosition_append {a b : List Char} (apart : ¬ Joins a b) :
    endPosition (a ++ b) = (endPosition a).after (endPosition b) := by
  rw [endPosition, List.length_append]
  exact positionAt_append a b b.length apart

/-- Where a break closes over the seam, one line is lost. -/
theorem endPosition_append_line {a b : List Char} (joined : Joins a b) :
    (endPosition (a ++ b)).line + 1 = (endPosition a).line + (endPosition b).line := by
  obtain ⟨last, first⟩ := joined
  obtain ⟨a, rfl⟩ : ∃ a', a = a' ++ ['\r'] := List.getLast?_eq_some_iff.mp last
  obtain ⟨b, rfl⟩ : ∃ b', b = '\n' :: b' := List.head?_eq_some_iff.mp first
  have left : endPosition (a ++ ['\r']) = (endPosition a).after ⟨1, 0⟩ :=
    endPosition_append (by simp [Joins])
  have right : endPosition ('\n' :: b) = Position.after ⟨1, 0⟩ (endPosition b) :=
    positionAt_cons b.length (by simp [Joins])
  have pair : endPosition ('\r' :: '\n' :: b) = Position.after ⟨1, 0⟩ (endPosition b) :=
    positionAt_pair b b.length
  have whole : endPosition (a ++ ['\r'] ++ '\n' :: b) =
      (endPosition a).after (Position.after ⟨1, 0⟩ (endPosition b)) := by
    rw [List.append_assoc, ← pair]
    exact endPosition_append (by simp [Joins])
  rw [whole, left, right]
  simp only [after_line]
  omega

theorem endPosition_append_line_le (a b : List Char) :
    (endPosition (a ++ b)).line ≤ (endPosition a).line + (endPosition b).line := by
  by_cases joined : Joins a b
  · have := endPosition_append_line joined
    omega
  · have total : (endPosition (a ++ b)).line = (endPosition a).line + (endPosition b).line := by
      rw [endPosition_append joined, after_line]
    exact Nat.le_of_eq total

/-- The position of an offset outside of breaks is the extent of the text before it. -/
theorem positionAt_eq_endPosition_take {text : List Char} {n : Nat}
    (outside : ¬ InsideBreak text n) : positionAt text n = endPosition (text.take n) := by
  by_cases within : n ≤ text.length
  · have cut := positionAt_append (text.take n) (text.drop n) 0 outside
    rwa [List.take_append_drop, List.length_take, Nat.min_eq_left within, positionAt_zero,
      after_zero, Nat.add_zero] at cut
  · have beyond := positionAt_append text [] (n - text.length) (by simp)
    have total : text.length + (n - text.length) = n := by omega
    rw [List.append_nil, total] at beyond
    rw [beyond, List.take_of_length_le (by omega)]
    cases n - text.length <;> rfl

theorem endPosition_pos {text : List Char} (nonempty : text ≠ []) : ⟨0, 0⟩ < endPosition text := by
  obtain ⟨c, rest, rfl⟩ := List.exists_cons_of_ne_nil nonempty
  by_cases pair : Joins [c] rest
  · obtain ⟨rfl, rest, rfl⟩ : c = '\r' ∧ ∃ rest', rest = '\n' :: rest' := by
      simpa [Joins, List.head?_eq_some_iff] using pair
    have whole : endPosition ('\r' :: '\n' :: rest) = Position.after ⟨1, 0⟩ (endPosition rest) :=
      positionAt_pair rest rest.length
    rw [whole, lt_def, after_line]
    exact Or.inl (Nat.lt_add_right _ Nat.one_pos)
  · have whole : endPosition (c :: rest) = (charExtent c).after (endPosition rest) :=
      positionAt_cons rest.length pair
    have first : ⟨0, 0⟩ < charExtent c := by
      simp only [charExtent, charUnits, lt_def]
      split <;> [simp; (split <;> simp)]
    calc (⟨0, 0⟩ : Position) < charExtent c := first
      _ = (charExtent c).after ⟨0, 0⟩ := rfl
      _ ≤ (charExtent c).after (endPosition rest) := (after_le_after_iff _ _ _).mpr (zero_le _)
      _ = endPosition (c :: rest) := whole.symm

end Text

end Inlay
