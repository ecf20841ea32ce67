import Inlay.TypeServer.Display
import Inlay.Proofs.Brackets
import Inlay.Proofs.Strip

/-!
Names and round brackets in descriptions.

A name is mentioned where it stands after a blank or a dot and before a colon, and the search for
it finds the first mention. A parenthesis is closed by the first one behind it that leaves the text
between them with every round bracket in a pair.
-/

namespace Inlay.TypeServer

open Inlay.Text

/-! ## Pairs of round brackets -/

/-- Every round bracket of the text has its partner. -/
inductive Paired : List Char → Prop
  | nil : Paired []
  | plain {c : Char} {rest : List Char} (opens : c ≠ '(') (closes : c ≠ ')') (paired : Paired rest) :
      Paired (c :: rest)
  | group {inner rest : List Char} (within : Paired inner) (behind : Paired rest) :
      Paired ('(' :: (inner ++ ')' :: rest))

/-- Brackets in pairs leave the depth as it is. -/
theorem Paired.closingFrom?_append {inner : List Char} (paired : Paired inner) {depth : Int}
    (isOpen : 0 < depth) (index : Nat) (rest : List Char) :
    closingFrom? depth index (inner ++ rest) = closingFrom? depth (index + inner.length) rest := by
  induction paired generalizing depth index rest with
  | nil => rfl
  | plain opens closes paired ih =>
    rw [List.cons_append, closingFrom?, if_neg opens, if_neg closes, ih isOpen, List.length_cons,
      Nat.add_assoc, Nat.add_comm 1]
  | @group inner behind _ _ ihInner ihBehind =>
    have stillOpen : depth + 1 - 1 ≠ 0 := by omega
    rw [List.cons_append, List.append_assoc, closingFrom?, if_pos rfl, ihInner (by omega),
      List.cons_append, closingFrom?, if_neg (by decide), if_pos rfl, if_neg stillOpen,
      Int.add_sub_cancel, ihBehind isOpen]
    congr 1
    simp only [List.length_cons, List.length_append]
    omega

/-- The parenthesis behind brackets in pairs closes the one in front of them. -/
theorem Paired.closingFrom?_closing {inner : List Char} (paired : Paired inner) (index : Nat)
    (rest : List Char) :
    closingFrom? 1 index (inner ++ ')' :: rest) = some (index + inner.length) := by
  rw [paired.closingFrom?_append (by decide), closingFrom?, if_neg (by decide), if_pos rfl,
    if_pos (by decide)]

/-- Where a parenthesis is closed, what comes before has its brackets in pairs. -/
theorem exists_paired {text : List Char} {depth : Int} (isOpen : 0 < depth) {index close : Nat}
    (found : closingFrom? depth index text = some close) :
    ∃ inner rest, Paired inner ∧ text = inner ++ ')' :: rest := by
  induction size : text.length using Nat.strong_induction_on generalizing text depth index with
  | _ size ih =>
    cases text with
    | nil => simp [closingFrom?] at found
    | cons c rest =>
      rw [closingFrom?] at found
      split at found
      · next opens =>
        -- The group that opens here is closed, and the search goes on behind it.
        obtain ⟨within, rest, paired, rfl⟩ := ih rest.length (by simp [← size]) (by omega) found rfl
        have stillOpen : depth + 1 - 1 ≠ 0 := by omega
        rw [paired.closingFrom?_append (by omega), closingFrom?, if_neg (by decide), if_pos rfl,
          if_neg stillOpen, Int.add_sub_cancel] at found
        obtain ⟨behind, rest, paired', rfl⟩ :=
          ih rest.length (by simp only [← size, List.length_cons, List.length_append]; omega)
            isOpen found rfl
        exact ⟨'(' :: (within ++ ')' :: behind), rest, .group paired paired', by simp [opens]⟩
      · next opens =>
        by_cases closes : c = ')'
        · exact ⟨[], rest, .nil, by simp [closes]⟩
        · rw [if_neg closes] at found
          obtain ⟨inner, rest, paired, rfl⟩ := ih rest.length (by simp [← size]) isOpen found rfl
          exact ⟨c :: inner, rest, .plain opens closes paired, rfl⟩

/-- A parenthesis is closed where the brackets behind it are in pairs. -/
theorem matchingParen?_eq_some_iff {front text : List Char} {close : Nat} :
    matchingParen? (front ++ '(' :: text) front.length = some close ↔
      ∃ inner rest, Paired inner ∧ text = inner ++ ')' :: rest ∧
        close = front.length + inner.length + 1 := by
  have step : matchingParen? (front ++ '(' :: text) front.length =
      closingFrom? 1 (front.length + 1) text := by
    rw [matchingParen?, List.drop_left, closingFrom?, if_pos rfl, Int.zero_add]
  have closed : ∀ {inner : List Char} (rest : List Char), Paired inner →
      closingFrom? 1 (front.length + 1) (inner ++ ')' :: rest) =
        some (front.length + inner.length + 1) := by
    intro inner rest paired
    rw [paired.closingFrom?_closing, Nat.add_right_comm]
  rw [step]
  constructor
  · intro found
    obtain ⟨inner, rest, paired, rfl⟩ := exists_paired (by decide) found
    exact ⟨inner, rest, paired, rfl, Option.some.inj (found.symm.trans (closed rest paired))⟩
  · rintro ⟨inner, rest, paired, rfl, rfl⟩
    exact closed rest paired

theorem drop_closing (front inner rest : List Char) :
    (front ++ '(' :: (inner ++ ')' :: rest)).drop (front.length + inner.length + 1 + 1) = rest := by
  have whole : front ++ '(' :: (inner ++ ')' :: rest) = (front ++ '(' :: inner ++ [')']) ++ rest := by
    simp
  rw [whole]
  apply List.drop_left'
  simp only [List.length_append, List.length_cons, List.length_nil]
  omega

theorem paired_iff {text : List Char} :
    Paired text ↔ closingFrom? 1 0 (text ++ [')']) = some text.length := by
  constructor
  · intro paired
    rw [paired.closingFrom?_closing, Nat.zero_add]
  · intro found
    obtain ⟨inner, rest, paired, same⟩ := exists_paired (by decide) found
    rw [same, paired.closingFrom?_closing, Option.some_inj, Nat.zero_add] at found
    rw [(List.append_inj same found.symm).1]
    exact paired

instance (text : List Char) : Decidable (Paired text) := decidable_of_iff _ paired_iff.symm

/-- A bracket that is opened in a text with all brackets in pairs is closed in it. -/
theorem Paired.closes {text : List Char} (paired : Paired text) {front rest : List Char}
    (cut : text = front ++ '(' :: rest) :
    ∃ inner behind, Paired inner ∧ rest = inner ++ ')' :: behind := by
  induction paired generalizing front rest with
  | nil => simp at cut
  | plain opens _ _ ih =>
    obtain ⟨-, same⟩ | ⟨front, rfl, later⟩ := List.cons_eq_append_iff.mp cut
    · exact absurd (List.cons.inj same).1.symm opens
    · exact ih later
  | @group inner behind within _ ihInner ihBehind =>
    obtain ⟨-, same⟩ | ⟨front, rfl, later⟩ := List.cons_eq_append_iff.mp cut
    · exact ⟨inner, behind, within, (List.cons.inj same).2⟩
    obtain ⟨middle, rfl, outside⟩ | ⟨middle, rfl, inside⟩ := List.append_eq_append_iff.mp later
    · obtain ⟨-, same⟩ | ⟨middle, rfl, further⟩ := List.cons_eq_append_iff.mp outside
      · exact absurd (List.cons.inj same).1 (by decide)
      · exact ihBehind further
    · obtain ⟨-, same⟩ | ⟨middle, rfl, rfl⟩ := List.cons_eq_append_iff.mp inside
      · exact absurd (List.cons.inj same).1 (by decide)
      · obtain ⟨inner, between, paired, rfl⟩ := ihInner rfl
        exact ⟨inner, between ++ ')' :: behind, paired, by simp⟩

theorem Paired.unique {a b : List Char} (paired : Paired a) (paired' : Paired b)
    {rest rest' : List Char} (same : a ++ ')' :: rest = b ++ ')' :: rest') : a = b ∧ rest = rest' := by
  have closed := paired.closingFrom?_closing 0 rest
  rw [same, paired'.closingFrom?_closing, Option.some_inj] at closed
  have lengths : a.length = b.length := by omega
  obtain ⟨first, second⟩ := List.append_inj same lengths
  exact ⟨first, (List.cons.inj second).2⟩

/-! ## Function types -/

def arrow : List Char := [' ', '=', '>', ' ']

/-- The type of a function with the given parameters. -/
def functionType (parameters returned : List Char) : List Char :=
  '(' :: (parameters ++ ')' :: (arrow ++ returned))

theorem behindArrow?_eq_some_iff {type returned : List Char} :
    behindArrow? type = some returned ↔
      ∃ parameters, Paired parameters ∧ type = functionType parameters returned := by
  constructor
  · intro found
    unfold behindArrow? at found
    split at found
    · next rest =>
      split at found
      · cases found
      · next closed =>
        obtain ⟨parameters, tail, paired, rfl, rfl⟩ := (@matchingParen?_eq_some_iff [] _ _).mp closed
        have behind := drop_closing [] parameters tail
        simp only [List.nil_append] at behind
        rw [behind, after?_eq_some_iff] at found
        exact ⟨parameters, paired, found ▸ rfl⟩
    · cases found
  · rintro ⟨parameters, paired, rfl⟩
    have closed : matchingParen? (functionType parameters returned) 0 = _ :=
      (@matchingParen?_eq_some_iff [] _ _).mpr ⟨parameters, arrow ++ returned, paired, rfl, rfl⟩
    have behind := drop_closing [] parameters (arrow ++ returned)
    unfold behindArrow?
    simp only [functionType] at closed ⊢
    simp only [closed]
    simp only [List.nil_append] at behind
    rw [behind]
    exact after?_eq_some_iff.mpr rfl

/-- A function type that begins among parameters ends among them, so that what seems to be returned
goes on to the parenthesis behind the parameters. -/
theorem Paired.exists_behind {text parameters front rest tail after : List Char}
    (paired : Paired text)
    (cut : text = front ++ '(' :: rest) (paired' : Paired parameters)
    (same : rest ++ ')' :: after = parameters ++ ')' :: (arrow ++ tail)) :
    ∃ between, tail = between ++ ')' :: after := by
  obtain ⟨inner, behind, within, rfl⟩ := paired.closes cut
  rw [List.append_assoc, List.cons_append] at same
  obtain ⟨-, same⟩ := within.unique paired' same
  obtain ⟨middle, isArrow, ends⟩ | ⟨middle, rfl, ends⟩ := List.append_eq_append_iff.mp same
  · obtain ⟨rfl, isTail⟩ | ⟨middle, rfl, -⟩ := List.cons_eq_append_iff.mp ends
    · exact ⟨[], isTail⟩
    · have isPart : ')' ∈ arrow := by simp [isArrow]
      exact absurd isPart (by decide)
  · exact ⟨middle, ends⟩

/-! ## Mentions of a name -/

/-- Names have none of the characters that stand between names in descriptions. -/
def isNamePart (c : Char) : Bool := !(isBlank c || c ∈ ['.', ':', '?', '(', ')'])

structure Identifier where
  text : List Char
  nonempty : text ≠ []
  plain : text.all isNamePart = true

theorem Identifier.isNamePart_of_mem (name : Identifier) {c : Char} (member : c ∈ name.text) :
    isNamePart c = true :=
  List.all_eq_true.mp name.plain c member

theorem Identifier.not_mem (name : Identifier) {c : Char} (outside : isNamePart c = false) :
    c ∉ name.text := by
  intro member
  simp [name.isNamePart_of_mem member] at outside

/-- The name with a colon, and with a question mark if it need not be given. -/
def Identifier.typed (name : Identifier) (optional : Bool) : List Char :=
  name.text ++ (if optional then ['?'] else []) ++ [':', ' ']

section

variable {name : Identifier} {text front rest tail : List Char} {c : Char}

theorem afterColon?_eq_some_iff :
    afterColon? name.text text = some tail ↔ ∃ optional, text = name.typed optional ++ tail := by
  unfold afterColon? Identifier.typed
  constructor
  · intro found
    split at found
    · cases found
    · next rest isName =>
      obtain rfl := after?_eq_some_iff.mp isName
      split at found
      · exact ⟨true, by simp_all⟩
      · exact ⟨false, by simp_all⟩
      · cases found
  · rintro ⟨optional, rfl⟩
    rw [List.append_assoc, List.append_assoc, after?_eq_some_iff.mpr rfl]
    cases optional <;> rfl

/-- The character is no part of a name with its colon. -/
def Stops (c : Char) : Prop := isNamePart c = false ∧ c ≠ '?' ∧ c ≠ ':'

instance (c : Char) : Decidable (Stops c) :=
  inferInstanceAs (Decidable (isNamePart c = false ∧ c ≠ '?' ∧ c ≠ ':'))

theorem afterColon?_eq_none (stops : Stops c) (unmarked : ':' ∉ front) :
    afterColon? name.text (front ++ c :: rest) = none := by
  obtain ⟨outside, noMark, noColon⟩ := stops
  rw [Option.eq_none_iff_forall_ne_some]
  intro tail found
  obtain ⟨optional, same⟩ := afterColon?_eq_some_iff.mp found
  have parts : ∀ d ∈ name.text ++ (if optional then ['?'] else []), isNamePart d = true ∨ d = '?' := by
    intro d member
    rcases List.mem_append.mp member with isName | isMark
    · exact .inl (name.isNamePart_of_mem isName)
    · cases optional <;> simp_all
  rw [Identifier.typed, List.append_assoc _ [':', ' ']] at same
  obtain ⟨middle, whole, ends⟩ | ⟨middle, rfl, ends⟩ := List.append_eq_append_iff.mp same
  · obtain ⟨-, first⟩ | ⟨middle, rfl, -⟩ := List.cons_eq_append_iff.mp ends
    · exact noColon (List.cons.inj first).1.symm
    · have isPart := parts c (by simp [whole])
      simp [outside, noMark] at isPart
  · obtain ⟨-, first⟩ | ⟨middle, rfl, -⟩ := List.cons_eq_append_iff.mp ends
    · exact noColon (List.cons.inj first).1
    · exact unmarked (by simp)

theorem afterLaterName?_append (stops : Stops c) (unmarked : ':' ∉ front) :
    afterLaterName? name.text (front ++ c :: rest) = afterLaterName? name.text (c :: rest) := by
  induction front with
  | nil => rfl
  | cons d front ih =>
    have unmarked : ':' ∉ front := fun member => unmarked (List.mem_cons_of_mem d member)
    rw [List.cons_append, afterLaterName?, afterColon?_eq_none stops unmarked, ih unmarked]
    simp

theorem afterName?_append (stops : Stops c) (unmarked : ':' ∉ front) :
    afterName? name.text (front ++ c :: rest) = afterLaterName? name.text (c :: rest) := by
  rw [afterName?, afterColon?_eq_none stops unmarked, Option.none_or,
    afterLaterName?_append stops unmarked]

/-- The name stands behind a blank or a dot, and `tail` behind it and its colon. -/
def MentionedAt (name : Identifier) (text front tail : List Char) : Prop :=
  ∃ separator optional, (isBlank separator || separator == '.') = true ∧
    text = front ++ separator :: (name.typed optional ++ tail)

/-- The same at the first place where it is so. -/
def FirstMentioned (name : Identifier) (text tail : List Char) : Prop :=
  ∃ front, MentionedAt name text front tail ∧
    ∀ other tail', MentionedAt name text other tail' → front.length ≤ other.length

theorem mentionedAt_cons_iff :
    MentionedAt name (c :: rest) front tail ↔
      front = [] ∧ (isBlank c || c == '.') = true ∧ afterColon? name.text rest = some tail ∨
        ∃ later, front = c :: later ∧ MentionedAt name rest later tail := by
  constructor
  · rintro ⟨separator, optional, separates, whole⟩
    obtain ⟨rfl, same⟩ | ⟨later, rfl, rfl⟩ := List.cons_eq_append_iff.mp whole
    · obtain ⟨rfl, rfl⟩ := List.cons.inj same
      exact .inl ⟨rfl, separates, afterColon?_eq_some_iff.mpr ⟨optional, rfl⟩⟩
    · exact .inr ⟨later, rfl, separator, optional, separates, rfl⟩
  · rintro (⟨rfl, separates, isHere⟩ | ⟨later, rfl, separator, optional, separates, rfl⟩)
    · obtain ⟨optional, rfl⟩ := afterColon?_eq_some_iff.mp isHere
      exact ⟨c, optional, separates, rfl⟩
    · exact ⟨separator, optional, separates, rfl⟩

theorem firstMentioned_cons_of_here {found : List Char}
    (separates : (isBlank c || c == '.') = true) (isFound : afterColon? name.text rest = some found) :
    FirstMentioned name (c :: rest) tail ↔ found = tail := by
  have first : MentionedAt name (c :: rest) [] found :=
    mentionedAt_cons_iff.mpr (.inl ⟨rfl, separates, isFound⟩)
  constructor
  · rintro ⟨front, mentioned, least⟩
    obtain rfl := List.eq_nil_of_length_eq_zero (Nat.le_zero.mp (least [] found first))
    obtain ⟨-, -, isTail⟩ | ⟨later, isLater, -⟩ := mentionedAt_cons_iff.mp mentioned
    · exact Option.some.inj (isFound.symm.trans isTail)
    · cases isLater
  · rintro rfl
    exact ⟨[], first, fun _ _ _ => Nat.zero_le _⟩

theorem firstMentioned_cons_of_later
    (elsewhere : (isBlank c || c == '.') = true → afterColon? name.text rest = none) :
    FirstMentioned name (c :: rest) tail ↔ FirstMentioned name rest tail := by
  have behind : ∀ {front tail}, MentionedAt name (c :: rest) front tail ↔
      ∃ later, front = c :: later ∧ MentionedAt name rest later tail := by
    intro front tail
    rw [mentionedAt_cons_iff, or_iff_right]
    rintro ⟨-, separates, isFound⟩
    simp [elsewhere separates] at isFound
  constructor
  · rintro ⟨_, mentioned, least⟩
    obtain ⟨front, rfl, isLater⟩ := behind.mp mentioned
    refine ⟨front, isLater, fun other tail' mentioned' => ?_⟩
    exact Nat.le_of_succ_le_succ (least _ _ (behind.mpr ⟨other, rfl, mentioned'⟩))
  · rintro ⟨front, mentioned, least⟩
    refine ⟨c :: front, behind.mpr ⟨front, rfl, mentioned⟩, fun _ tail' mentioned' => ?_⟩
    obtain ⟨other, rfl, isLater⟩ := behind.mp mentioned'
    exact Nat.succ_le_succ (least other tail' isLater)

theorem afterLaterName?_eq_some_iff :
    afterLaterName? name.text text = some tail ↔ FirstMentioned name text tail := by
  induction text with
  | nil => simp [afterLaterName?, FirstMentioned, MentionedAt]
  | cons c rest ih =>
    rw [afterLaterName?]
    split
    · next separates =>
      split
      · next isFound => rw [firstMentioned_cons_of_here separates isFound, Option.some_inj]
      · next isNone => rw [ih, firstMentioned_cons_of_later fun _ => isNone]
    · next separates => rw [ih, firstMentioned_cons_of_later (absurd · separates)]

end

end Inlay.TypeServer
