import Mathlib.Data.List.TakeWhile
import Inlay.Check.Coerce
import Inlay.Proofs.Text

/-!
What a whole number that is given as text denotes: the number that its digits in front of a point
give. Signs, blanks, underscores, leading zeros and empty places make no difference to that.
-/

namespace Inlay.Check

open Inlay.Text

/-- The values of the digits in front of the first point. -/
def digitsOf (text : List Char) : List Nat := (text.takeWhile (· != '.')).filterMap plainDigit?

/-- The number that the digits in front of the first point give. -/
def decimal (text : List Char) : Nat := valueOf (digitsOf text)

theorem digitsOf_cons (c : Char) (rest : List Char) :
    digitsOf (c :: rest) = if c = '.' then [] else (plainDigit? c).toList ++ digitsOf rest := by
  by_cases point : c = '.'
  · simp [digitsOf, point]
  · rw [if_neg point, digitsOf, List.takeWhile_cons]
    have inside : (c != '.') = true := by simpa using point
    rw [if_pos inside, List.filterMap_cons]
    cases plainDigit? c <;> rfl

/-- A character that is neither a digit nor a point. -/
def IsFiller (c : Char) : Prop := c ≠ '.' ∧ plainDigit? c = none

theorem IsFiller.digitsOf_cons {c : Char} (filler : IsFiller c) (rest : List Char) :
    digitsOf (c :: rest) = digitsOf rest := by
  rw [Check.digitsOf_cons, if_neg filler.1, filler.2]
  rfl

theorem isFiller_of_isOuterBlank {c : Char} (blank : isOuterBlank c = true) : IsFiller c := by
  have isBlank : isBlank c = true := (Bool.and_eq_true_iff.mp blank).1
  constructor
  · rintro rfl
    exact absurd isBlank (by decide)
  · by_contra digit
    obtain ⟨low, high⟩ :=
      plainDigit?_isSome_iff.mp (Option.isSome_iff_ne_none.mpr digit)
    simp [isBlank_of_digit low high] at isBlank

theorem isFiller_underscore : IsFiller '_' := ⟨by decide, by decide⟩

theorem isFiller_minus : IsFiller '-' := ⟨by decide, by decide⟩

theorem isFiller_plus : IsFiller '+' := ⟨by decide, by decide⟩

/-! ## What is dropped -/

theorem digitsOf_dropWhile {test : Char → Bool} (fills : ∀ c, test c = true → IsFiller c)
    (text : List Char) : digitsOf (text.dropWhile test) = digitsOf text := by
  induction text with
  | nil => rfl
  | cons c rest ih =>
    rw [List.dropWhile_cons]
    split
    · next dropped => rw [(fills c dropped).digitsOf_cons, ih]
    · rfl

theorem digitsOf_dropEndWhile {test : Char → Bool} (fills : ∀ c, test c = true → IsFiller c)
    (text : List Char) : digitsOf (dropEndWhile test text) = digitsOf text := by
  induction text with
  | nil => rfl
  | cons c rest ih =>
    rw [dropEndWhile]
    split
    · next nothing =>
      rw [nothing] at ih
      split
      · next dropped => rw [(fills c dropped).digitsOf_cons, ← ih]
      · rw [digitsOf_cons, digitsOf_cons, ih]
    · next kept _ => rw [digitsOf_cons, digitsOf_cons c rest, ih]

theorem digitsOf_trim (text : List Char) : digitsOf (trim text) = digitsOf text := by
  rw [trim, digitsOf_dropEndWhile fun _ => isFiller_of_isOuterBlank,
    digitsOf_dropWhile fun _ => isFiller_of_isOuterBlank]

theorem digitsOf_splitSign (text : List Char) :
    digitsOf (Whole.splitSign text).2 = digitsOf text := by
  unfold Whole.splitSign
  split
  · exact (isFiller_minus.digitsOf_cons _).symm
  · exact (isFiller_plus.digitsOf_cons _).symm
  · rfl

theorem digitsOf_withoutPlaces (text : List Char) :
    digitsOf (withoutPlaces text) = digitsOf text := by
  have cut : digitsOf (text.takeWhile (· != '.')) = digitsOf text := by
    rw [digitsOf, digitsOf, List.takeWhile_eq_self_iff.mpr fun c => List.mem_takeWhile_imp]
  unfold withoutPlaces
  split
  · split
    · exact cut
    · rfl
  · rfl

theorem digitsOf_ungroup (text : List Char) : digitsOf (ungroup text) = digitsOf text := by
  have plain : digitsOf (withoutUnderscores text) = digitsOf text := by
    induction text with
    | nil => rfl
    | cons c rest ih =>
      rw [withoutUnderscores, List.filter_cons, ← withoutUnderscores]
      split
      · rw [digitsOf_cons, digitsOf_cons c rest, ih]
      · next underscore =>
        obtain rfl : c = '_' := by simpa using underscore
        rw [isFiller_underscore.digitsOf_cons, ih]
  unfold ungroup
  split
  · exact plain
  · rfl

/-- A zero or an underscore in front makes no difference to the number. -/
theorem decimal_cons_of_zero {c : Char} (zero : c = '0' ∨ c = '_') (rest : List Char) :
    decimal (c :: rest) = decimal rest := by
  rcases zero with rfl | rfl
  · have digit : plainDigit? '0' = some 0 := by decide
    rw [decimal, digitsOf_cons, if_neg (by decide), digit]
    rfl
  · rw [decimal, isFiller_underscore.digitsOf_cons, ← decimal]

theorem decimal_dropZeros {last : Char} {rest kept : List Char} (zero : last = '0' ∨ last = '_')
    (dropped : dropZeros? last rest = some kept) : decimal kept = decimal (last :: rest) := by
  induction rest generalizing last with
  | nil =>
    obtain rfl := Option.some.inj dropped
    rfl
  | cons c rest ih =>
    rw [dropZeros?] at dropped
    split at dropped
    · next zero' => rw [ih zero' dropped, decimal_cons_of_zero zero]
    · split at dropped
      · obtain rfl := Option.some.inj dropped
        rfl
      · split at dropped
        · obtain rfl := Option.some.inj dropped
          rw [decimal_cons_of_zero zero]
        · cases dropped

theorem decimal_withoutLeadingZeros {text kept : List Char}
    (dropped : withoutLeadingZeros? text = some kept) : decimal kept = decimal text := by
  unfold withoutLeadingZeros? at dropped
  split at dropped
  · exact decimal_dropZeros (.inl rfl) dropped
  · split at dropped
    · obtain rfl := Option.some.inj dropped
      rfl
    · cases dropped
  · cases dropped

/-! ## The number -/

/-- The plain form has the number of the text. -/
theorem decimal_tidy {text plain : List Char} (tidied : tidy? text = some plain) :
    decimal plain = decimal text := by
  have parts : tidy? text =
      (withoutLeadingZeros? (Whole.splitSign (trim text)).2).map fun digits =>
        (if (Whole.splitSign (trim text)).1 then ['-'] else []) ++
          ungroup (withoutPlaces digits) := rfl
  rw [parts] at tidied
  obtain ⟨digits, dropped, rfl⟩ := Option.map_eq_some_iff.mp tidied
  have unsigned : decimal digits = decimal text := by
    rw [decimal_withoutLeadingZeros dropped, decimal, digitsOf_splitSign, digitsOf_trim, ← decimal]
  have grouped : digitsOf (ungroup (withoutPlaces digits)) = digitsOf digits := by
    rw [digitsOf_ungroup, digitsOf_withoutPlaces]
  rw [← unsigned, decimal, decimal]
  split
  · rw [List.singleton_append, isFiller_minus.digitsOf_cons, grouped]
  · rw [List.nil_append, grouped]

theorem digitsOf_digits {text : List Char} (digits : ∀ c ∈ text, (plainDigit? c).isSome = true) :
    digitsOf text = text.filterMap plainDigit? := by
  rw [digitsOf, List.takeWhile_eq_self_iff.mpr]
  intro c member
  have digit := digits c member
  have other : c ≠ '.' := by
    rintro rfl
    exact absurd digit (by decide)
  simpa using other

theorem natAbs_signed (negative : Bool) (size : Nat) :
    (Whole.signed negative size).natAbs = size := by
  cases negative <;> simp [Whole.signed]

theorem natAbs_plainInteger {text : List Char} {n : Int} (read : plainInteger text = .ok n) :
    n.natAbs = decimal text := by
  unfold plainInteger at read
  split at read
  next negative unsigned sign =>
  have same : digitsOf unsigned = digitsOf text := by
    split at sign
    · obtain ⟨-, rfl⟩ := Prod.mk.inj sign
      exact (isFiller_minus.digitsOf_cons _).symm
    · obtain ⟨-, rfl⟩ := Prod.mk.inj sign
      rfl
  dsimp only at read
  generalize (if negative = true then 1 else 0) = signLength at read
  split at read
  · cases read
  · split at read
    · cases read
    · split at read
      · cases read
      · next nothing =>
        have digits := List.dropWhile_eq_nil_iff.mp (not_not.mp nothing)
        rw [List.takeWhile_eq_self_iff.mpr digits] at read
        obtain rfl := Except.ok.inj read
        rw [natAbs_signed, decimal, ← same, digitsOf_digits digits]

/-- A number that is given as text is the one that its digits in front of a point give. -/
theorem natural_text {text : String} {n : Nat} (read : natural (.text text) = .ok n) :
    n = decimal text.toList := by
  unfold natural at read
  split at read
  · next z whole =>
    split at read
    · next nonnegative =>
      obtain rfl := Except.ok.inj read
      have reads : integerText text.toList = .ok z := whole
      unfold integerText at reads
      split at reads
      · next plain tidied =>
        rw [← decimal_tidy tidied, ← natAbs_plainInteger reads]
        omega
      · cases reads
    · cases read
  · cases read

end Inlay.Check
