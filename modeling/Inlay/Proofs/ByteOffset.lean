import Inlay.Proofs.Offset
import Inlay.Tree.Source

/-!
Positions of bytes.

A tree counts bytes where an editor counts characters. The position of a byte is found with the
starts of the lines, the position of a character by going through the text. Both take one character
after the other away from the front of the text, a line break as a whole, and lose the same extent
with it, so that they agree wherever a character begins or the text ends.
-/

namespace Inlay

namespace Text

open Position

theorem bytes_eq_utf8ByteSize (text : List Char) :
    bytes text = (String.ofList text).utf8ByteSize := by
  induction text with
  | nil => simp [bytes]
  | cons c rest ih =>
    have split : String.ofList (c :: rest) = String.singleton c ++ String.ofList rest := by
      rw [String.singleton_eq_ofList, ← String.ofList_append, List.singleton_append]
    rw [bytes, ih, split, String.utf8ByteSize_append, String.utf8ByteSize_singleton]

theorem bytes_take_le (text : List Char) (n : Nat) : bytes (text.take n) ≤ bytes text := by
  induction text generalizing n with
  | nil => simp
  | cons c rest ih =>
    cases n with
    | zero => exact Nat.zero_le _
    | succ n => exact Nat.add_le_add_left (ih n) _

theorem bytes_pair (rest : List Char) : bytes ('\r' :: '\n' :: rest) = 2 + bytes rest := by
  rw [bytes, bytes, ← Nat.add_assoc]
  rfl

/-! ## Slices -/

theorem slice_zero (stop : Nat) (text : List Char) : slice 0 stop text = takeBytes stop text := by
  cases text with
  | nil => cases stop <;> rfl
  | cons c rest => rfl

theorem takeBytes_cons (c : Char) (rest : List Char) (n : Nat) :
    takeBytes (c.utf8Size + n) (c :: rest) = c :: takeBytes n rest := by
  have size := c.utf8Size_pos
  rw [takeBytes, if_pos (Nat.le_add_right _ _), Nat.add_sub_cancel_left]
  omega

/-- A slice behind the first character is one of the rest. -/
theorem slice_cons (c : Char) (rest : List Char) (start stop : Nat) :
    slice (c.utf8Size + start) (c.utf8Size + stop) (c :: rest) = slice start stop rest := by
  have size := c.utf8Size_pos
  rw [slice, if_pos (Nat.le_add_right _ _), Nat.add_sub_cancel_left, Nat.add_sub_cancel_left]
  omega

theorem slice_pair (rest : List Char) (start stop : Nat) :
    slice (2 + start) (2 + stop) ('\r' :: '\n' :: rest) = slice start stop rest := by
  have first := slice_cons '\r' ('\n' :: rest) (1 + start) (1 + stop)
  rw [← Nat.add_assoc, ← Nat.add_assoc] at first
  exact first.trans (slice_cons '\n' rest start stop)

theorem dropEndWhile_cons {test : Char → Bool} {c : Char} (rest : List Char)
    (kept : test c = false) : dropEndWhile test (c :: rest) = c :: dropEndWhile test rest := by
  rw [dropEndWhile]
  split
  · next empty => simp [kept, empty]
  · rfl

end Text

open Text Position

/-! ## Lines -/

theorem laterLineStarts_add (shift offset : Nat) (text : List Char) :
    laterLineStarts (shift + offset) text = (laterLineStarts offset text).map (shift + ·) := by
  fun_induction laterLineStarts offset text with
  | case1 => rfl
  | case2 offset rest ih =>
    rw [laterLineStarts, List.map_cons, ← ih]
    rfl
  | case3 offset c rest alone next broken ih =>
    rw [laterLineStarts, if_pos broken, List.map_cons, ← ih, Nat.add_assoc]
    exact alone
  | case4 offset c rest alone next plain ih =>
    rw [laterLineStarts, if_neg plain, ← ih, Nat.add_assoc]
    exact alone

theorem lt_of_mem_laterLineStarts {offset start : Nat} {text : List Char}
    (member : start ∈ laterLineStarts offset text) : offset < start := by
  fun_induction laterLineStarts offset text with
  | case1 => simp at member
  | case2 offset rest ih =>
    rcases List.mem_cons.mp member with rfl | later
    · omega
    · have := ih later
      omega
  | case3 offset c rest alone next broken ih =>
    have size := c.utf8Size_pos
    rcases List.mem_cons.mp member with rfl | later
    · omega
    · have := ih later
      omega
  | case4 offset c rest alone next plain ih =>
    have size := c.utf8Size_pos
    have := ih member
    omega

/-- The starts of the lines after the first, up to an offset. -/
def startsUpTo (text : List Char) (offset : Nat) : List Nat :=
  (laterLineStarts 0 text).takeWhile (· ≤ offset)

/-- The starts behind the beginning of a text are those of the rest, moved by its size. -/
theorem takeWhile_laterLineStarts (size n : Nat) (rest : List Char) :
    (laterLineStarts size rest).takeWhile (· ≤ size + n) = (startsUpTo rest n).map (size + ·) := by
  have moved : laterLineStarts size rest = (laterLineStarts 0 rest).map (size + ·) :=
    laterLineStarts_add size 0 rest
  have same : (fun start => decide (start ≤ size + n)) ∘ (size + ·) =
      fun start => decide (start ≤ n) := by
    funext start
    simp
  rw [moved, List.takeWhile_map, same, startsUpTo]

theorem startsUpTo_pair (rest : List Char) (n : Nat) :
    startsUpTo ('\r' :: '\n' :: rest) (2 + n) = 2 :: (startsUpTo rest n).map (2 + ·) := by
  rw [startsUpTo, laterLineStarts, Nat.zero_add, List.takeWhile_cons_of_pos (by simp),
    takeWhile_laterLineStarts]

theorem startsUpTo_cons {c : Char} {rest : List Char} (n : Nat) (alone : ¬ Joins [c] rest) :
    startsUpTo (c :: rest) (c.utf8Size + n) =
      if isBreak c then c.utf8Size :: (startsUpTo rest n).map (c.utf8Size + ·)
      else (startsUpTo rest n).map (c.utf8Size + ·) := by
  have starts : laterLineStarts 0 (c :: rest) =
      if isBreak c then c.utf8Size :: laterLineStarts c.utf8Size rest
      else laterLineStarts c.utf8Size rest := by
    rw [laterLineStarts, Nat.zero_add]
    rintro rest' rfl rfl
    exact alone ⟨rfl, rfl⟩
  rw [startsUpTo, starts, ← takeWhile_laterLineStarts]
  split
  · rw [List.takeWhile_cons_of_pos (by simp)]
  · rfl

theorem getLastD_map_add (shift : Nat) (starts : List Nat) :
    (starts.map (shift + ·)).getLastD shift = shift + starts.getLastD 0 := by
  rw [List.getLastD_eq_getLast?, List.getLastD_eq_getLast?, List.getLast?_map]
  cases starts.getLast? <;> rfl

/-! ## Positions -/

theorem positionOfByte_eq {text : List Char} {offset : Nat} (within : offset ≤ bytes text) :
    positionOfByte text offset =
      ⟨(startsUpTo text offset).length,
        units (dropEndWhile (· == '\r')
          (slice ((startsUpTo text offset).getLastD 0) offset text))⟩ := by
  have first : (lineStarts text).takeWhile (· ≤ offset) = 0 :: startsUpTo text offset :=
    List.takeWhile_cons_of_pos (by simp)
  simp only [positionOfByte, Nat.min_eq_left within, first, List.length_cons, List.getLastD_cons,
    Nat.add_sub_cancel]

/-- A byte before the second line. -/
theorem positionOfByte_first_line {text : List Char} {offset : Nat} (within : offset ≤ bytes text)
    (before : startsUpTo text offset = []) :
    positionOfByte text offset = ⟨0, units (dropEndWhile (· == '\r') (takeBytes offset text))⟩ := by
  rw [positionOfByte_eq within, before, List.getLastD_nil, slice_zero, List.length_nil]

theorem positionOfByte_zero (text : List Char) : positionOfByte text 0 = ⟨0, 0⟩ := by
  have before : startsUpTo text 0 = [] := by
    rw [List.eq_nil_iff_forall_not_mem]
    intro start member
    have reached : start ≤ 0 := by simpa using List.all_eq_true.mp List.all_takeWhile start member
    have behind := lt_of_mem_laterLineStarts (List.takeWhile_subset _ member)
    omega
  rw [positionOfByte_first_line (Nat.zero_le _) before, takeBytes]
  rfl

/-- The byte between a carriage return and its line feed belongs to the line that ends there. -/
theorem positionOfByte_inside_pair (rest : List Char) :
    positionOfByte ('\r' :: '\n' :: rest) 1 = ⟨0, 0⟩ := by
  have within : 1 ≤ bytes ('\r' :: '\n' :: rest) := Nat.le_add_right _ _
  have before : startsUpTo ('\r' :: '\n' :: rest) 1 = [] := by
    rw [startsUpTo, laterLineStarts]
    exact List.takeWhile_cons_of_neg (by simp)
  rw [positionOfByte_first_line within before]
  rfl

theorem break_after (p : Position) : Position.after ⟨1, 0⟩ p = ⟨p.line + 1, p.character⟩ := by
  ext
  · rw [after_line, Nat.add_comm]
  · unfold Position.after
    split <;> simp

/-- Going on behind a line break at the beginning of a text, which takes `size` bytes. -/
theorem positionOfByte_of_break {text rest : List Char} {size n : Nat} (within : n ≤ bytes rest)
    (total : bytes text = size + bytes rest)
    (starts : startsUpTo text (size + n) = size :: (startsUpTo rest n).map (size + ·))
    (cut : ∀ start, slice (size + start) (size + n) text = slice start n rest) :
    positionOfByte text (size + n) = Position.after ⟨1, 0⟩ (positionOfByte rest n) := by
  have within' : size + n ≤ bytes text := by omega
  rw [positionOfByte_eq within', positionOfByte_eq within, starts, List.getLastD_cons,
    getLastD_map_add, cut, List.length_cons, List.length_map, break_after]

theorem positionOfByte_pair {rest : List Char} {n : Nat} (within : n ≤ bytes rest) :
    positionOfByte ('\r' :: '\n' :: rest) (2 + n) =
      Position.after ⟨1, 0⟩ (positionOfByte rest n) := by
  exact positionOfByte_of_break within (bytes_pair rest) (startsUpTo_pair rest n)
    fun start => slice_pair rest start n

theorem positionOfByte_cons {c : Char} {rest : List Char} {n : Nat} (alone : ¬ Joins [c] rest)
    (within : n ≤ bytes rest) :
    positionOfByte (c :: rest) (c.utf8Size + n) = (charExtent c).after (positionOfByte rest n) := by
  have starts := startsUpTo_cons n alone
  by_cases broken : isBreak c
  · rw [if_pos broken] at starts
    rw [charExtent, if_pos broken]
    exact positionOfByte_of_break within rfl starts fun start => slice_cons c rest start n
  · rw [if_neg broken] at starts
    have within' : c.utf8Size + n ≤ bytes (c :: rest) := Nat.add_le_add_left within _
    have kept : c ≠ '\r' := by
      rintro rfl
      exact broken rfl
    rw [charExtent, if_neg broken]
    rcases eq : startsUpTo rest n with _ | ⟨start, later⟩
    -- The byte is still on the first line, to which the character belongs.
    · rw [eq] at starts
      rw [positionOfByte_first_line within' starts, positionOfByte_first_line within eq,
        takeBytes_cons, dropEndWhile_cons _ (by simpa using kept)]
      rfl
    · have last : (startsUpTo (c :: rest) (c.utf8Size + n)).getLastD 0 =
          c.utf8Size + (startsUpTo rest n).getLastD 0 := by
        rw [starts, eq, ← getLastD_map_add, List.map_cons, List.getLastD_cons, List.getLastD_cons]
      rw [positionOfByte_eq within', positionOfByte_eq within, last, slice_cons, starts,
        List.length_map]
      simp [Position.after, eq]

/-- The bytes of the characters before an offset lead to the position of the offset. -/
theorem positionOfByte_bytes_take (text : List Char) (n : Nat) :
    positionOfByte text (bytes (text.take n)) = positionAt text n := by
  fun_induction positionAt text n with
  | case1 n => simp [bytes, positionOfByte_zero]
  | case2 text _ => exact positionOfByte_zero text
  | case3 rest => exact positionOfByte_inside_pair rest
  | case4 rest n ih =>
    rw [← ih, ← positionOfByte_pair (bytes_take_le rest n), ← bytes_pair]
    rfl
  | case5 c rest n inside behind ih =>
    have alone : ¬ Joins [c] rest := by
      rw [joins_singleton]
      rintro ⟨rfl, rest', rfl⟩
      cases n with
      | zero => exact inside rest' rfl rfl rfl
      | succ n => exact behind rest' n rfl rfl rfl
    rw [← ih]
    exact positionOfByte_cons alone (bytes_take_le rest n)

namespace Source

/-- The byte at which a character begins, or the text ends, has the position of the character in the
text. Clamping leaves this position alone. -/
theorem positionOf_agrees_with_positionAt (source : Source) (n : Nat) :
    let start := (String.ofList (source.text.toList.take n)).utf8ByteSize
    source.positionOf start = positionAt source.text.toList n ∧
      clampPosition source.text.toList (source.positionOf start) = source.positionOf start := by
  intro start
  have agrees : source.positionOf start = positionAt source.text.toList n := by
    rw [positionOf, ← positionOfByte_bytes_take, bytes_eq_utf8ByteSize]
  refine ⟨agrees, ?_⟩
  rw [agrees, clampPosition_positionAt]

end Source

end Inlay
