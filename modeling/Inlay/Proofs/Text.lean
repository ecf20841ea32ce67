import Mathlib.Data.List.Basic
import Inlay.Text.Blank
import Inlay.Text.Digit
import Inlay.Text.Lowercase
import Inlay.Text.Split

/-!
Pieces of a text, its small letters and its digits.
-/

namespace Inlay.Text

/-! ## Pieces -/

section

variable {separator : Char} {piece text : List Char} {parts : List (List Char)}

theorem splitAt_ne_nil (separator : Char) (text : List Char) : splitAt separator text ≠ [] := by
  cases text with
  | nil => exact List.cons_ne_nil _ _
  | cons c rest =>
    rw [splitAt]
    split
    · exact List.cons_ne_nil _ _
    · split <;> exact List.cons_ne_nil _ _

theorem splitAt_append (clean : separator ∉ piece) (text : List Char) :
    splitAt separator (piece ++ text) = (splitAt separator text).modifyHead (piece ++ ·) := by
  induction piece with
  | nil =>
    rw [List.nil_append]
    cases splitAt separator text <;> rfl
  | cons c piece ih =>
    obtain ⟨other, clean⟩ := not_or.mp (mt List.mem_cons.mpr clean)
    rw [List.cons_append, splitAt, if_neg (Ne.symm other), ih clean]
    cases pieces : splitAt separator text with
    | nil => exact absurd pieces (splitAt_ne_nil separator text)
    | cons first later => rfl

/-- A piece ends where the separator stands. -/
theorem splitAt_append_cons (clean : separator ∉ piece) (rest : List Char) :
    splitAt separator (piece ++ separator :: rest) = piece :: splitAt separator rest := by
  rw [splitAt_append clean, splitAt, if_pos rfl, List.modifyHead_cons, List.append_nil]

theorem splitAt_of_not_mem (clean : separator ∉ text) : splitAt separator text = [text] := by
  have whole := splitAt_append clean []
  rwa [List.append_nil, splitAt, List.modifyHead_cons, List.append_nil] at whole

theorem splitAt_eq_singleton (single : splitAt separator text = [piece]) : piece = text := by
  induction text generalizing piece with
  | nil => exact (List.cons.inj single).1.symm
  | cons c rest ih =>
    rw [splitAt] at single
    by_cases cut : c = separator
    · rw [if_pos cut] at single
      exact absurd (List.cons.inj single).2 (splitAt_ne_nil separator rest)
    · rw [if_neg cut] at single
      cases pieces : splitAt separator rest with
      | nil => exact absurd pieces (splitAt_ne_nil separator rest)
      | cons first later =>
        rw [pieces] at single
        obtain ⟨rfl, rfl⟩ := List.cons.inj single
        rw [ih pieces]

theorem not_mem_of_mem_splitAt (member : piece ∈ splitAt separator text) :
    separator ∉ piece := by
  induction text generalizing piece with
  | nil => simp_all [splitAt]
  | cons c rest ih =>
    rw [splitAt] at member
    by_cases cut : c = separator
    · rw [if_pos cut] at member
      rcases List.mem_cons.mp member with rfl | later
      · simp
      · exact ih later
    · rw [if_neg cut] at member
      cases pieces : splitAt separator rest with
      | nil => exact absurd pieces (splitAt_ne_nil separator rest)
      | cons first later =>
        rw [pieces] at member ih
        rcases List.mem_cons.mp member with rfl | behind
        · have clean := ih List.mem_cons_self
          simp [clean, Ne.symm cut]
        · exact ih (List.mem_cons_of_mem first behind)

/-- Parts without the separator are found again between separators. -/
theorem splitAt_intercalate (nonempty : parts ≠ []) (clean : ∀ part ∈ parts, separator ∉ part) :
    splitAt separator ([separator].intercalate parts) = parts := by
  induction parts with
  | nil => exact absurd rfl nonempty
  | cons first rest ih =>
    obtain ⟨here, later⟩ := List.forall_mem_cons.mp clean
    cases rest with
    | nil =>
      rw [List.intercalate_singleton, splitAt_of_not_mem here]
    | cons second rest =>
      rw [List.intercalate_cons_cons, List.append_assoc, List.singleton_append,
        splitAt_append_cons here, ih (by simp) later]

theorem mem_intercalate {c : Char} (inside : c ∈ [separator].intercalate parts) :
    c = separator ∨ ∃ part ∈ parts, c ∈ part := by
  induction parts with
  | nil => cases inside
  | cons first rest ih =>
    cases rest with
    | nil =>
      rw [List.intercalate_singleton] at inside
      exact .inr ⟨first, .head _, inside⟩
    | cons second rest =>
      rw [List.intercalate_cons_cons, List.mem_append, List.mem_append] at inside
      rcases inside with (here | between) | later
      · exact .inr ⟨first, .head _, here⟩
      · exact .inl (List.mem_singleton.mp between)
      · exact (ih later).imp_right fun ⟨part, isPart, isIn⟩ => ⟨part, .tail _ isPart, isIn⟩

theorem after?_eq_some_iff {start text rest : List Char} :
    after? start text = some rest ↔ text = start ++ rest := by
  induction start generalizing text with
  | nil => simp [after?]
  | cons c start ih =>
    cases text with
    | nil => simp [after?]
    | cons d text => by_cases same : c = d <;> simp [after?, same, ih, eq_comm]

theorem occursIn_of_after? {mark : List Char} (found : (after? mark text).isSome) :
    occursIn mark text = true := by
  unfold occursIn
  cases text with
  | nil => simpa [cutAt?] using found
  | cons c text =>
    obtain ⟨rest, isRest⟩ := Option.isSome_iff_exists.mp found
    simp [cutAt?, isRest]

theorem occursIn_cons {mark : List Char} (occurs : occursIn mark text = true) (c : Char) :
    occursIn mark (c :: text) = true := by
  unfold occursIn at occurs ⊢
  rw [cutAt?]
  split
  · rfl
  · simpa using occurs

theorem occursIn_of_mem {c : Char} (isMember : c ∈ text) : occursIn [c] text = true := by
  induction isMember with
  | head => exact occursIn_of_after? (by simp [after?])
  | tail d _ ih => exact occursIn_cons ih d

end

/-! ## Letters and digits -/

theorem lowerChar_ascii {c : Char} (small : c.toNat < 128) : lowerChar c = [c.toLower] := by
  have table : ∀ n : Fin 128, lowerChar (Char.ofNat n) = [(Char.ofNat n).toLower] := by
    decide +kernel
  simpa using table ⟨c.toNat, small⟩

/-- Below 128 a character is lowered by itself, whatever stands around it. -/
theorem lower_ascii {text : List Char} (small : ∀ c ∈ text, c.toNat < 128) :
    lower text = text.map Char.toLower := by
  have lowered : ∀ (afterCased : Bool) (text : List Char), (∀ c ∈ text, c.toNat < 128) →
      lowerAfter afterCased text = text.map Char.toLower := by
    intro afterCased text
    induction text generalizing afterCased with
    | nil => exact fun _ => rfl
    | cons c rest ih =>
      intro small
      have here := small c List.mem_cons_self
      have plain : c.toNat ≠ 0x3A3 := by omega
      rw [lowerAfter, ih _ fun d member => small d (List.mem_cons_of_mem c member)]
      simp [plain, lowerChar_ascii here]
  exact lowered false text small

/-- A plain character at the end of a text is lowered to the end. -/
theorem exists_lowerAfter_concat {last : Char} (small : last.toNat < 128) (afterCased : Bool)
    (front : List Char) :
    ∃ lowered, lowerAfter afterCased (front ++ [last]) = lowered ++ [last.toLower] := by
  induction front generalizing afterCased with
  | nil =>
    have plain : last.toNat ≠ 0x3A3 := by omega
    refine ⟨[], ?_⟩
    rw [List.nil_append, lowerAfter, lowerChar_ascii small]
    simp [plain, lowerAfter]
  | cons c front ih =>
    rw [List.cons_append, lowerAfter]
    obtain ⟨lowered, isLowered⟩ := ih (if within passedOver c then afterCased else within cased c)
    rw [isLowered]
    exact ⟨_, (List.append_assoc _ _ _).symm⟩

theorem toNat_lt_of_toLower {c : Char} (small : c.toLower.toNat < 128) : c.toNat < 128 := by
  by_cases upper : c.toNat < 128
  · exact upper
  · have same : c.toLower = c := by
      refine dif_neg ?_
      rintro ⟨-, high⟩
      have bound : c.toNat ≤ 90 := high
      omega
    rwa [same] at small

theorem plainDigit?_isSome_iff {c : Char} :
    (plainDigit? c).isSome = true ↔ 48 ≤ c.toNat ∧ c.toNat ≤ 57 := by
  have bounds : ('0' ≤ c ∧ c ≤ '9') ↔ 48 ≤ c.toNat ∧ c.toNat ≤ 57 := Iff.rfl
  rw [plainDigit?]
  split <;> simp_all

section

variable {c : Char}

theorem plainDigit?_of_digit (low : 48 ≤ c.toNat) (high : c.toNat ≤ 57) :
    plainDigit? c = some (c.toNat - 48) :=
  if_pos ⟨low, high⟩

theorem digit?_of_digit (low : 48 ≤ c.toNat) (high : c.toNat ≤ 57) :
    digit? c = some (c.toNat - 48) := by
  have below : c.toNat < 58 := by omega
  simp [digit?, zeros, low, below]

theorem isBlank_of_digit (low : 48 ≤ c.toNat) (high : c.toNat ≤ 57) : isBlank c = false := by
  simp only [isBlank, within, blanks, List.any_cons, List.any_nil, Bool.or_false]
  simp only [Bool.or_eq_false_iff, Bool.and_eq_false_iff, decide_eq_false_iff_not]
  omega

end

theorem separates_of_digits {text : List Char} (plain : '_' ∉ text) : separates text = true := by
  fun_induction separates text with
  | case1 => rfl
  | case2 => exact absurd List.mem_cons_self plain
  | case3 => exact absurd List.mem_cons_self plain
  | case4 c rest _ _ ih => exact ih fun member => plain (List.mem_cons_of_mem c member)

/-- The digits that give a number are plain, and there is one at least. -/
theorem plainNumber?_eq_some {text : List Char} {n : Nat} (number : plainNumber? text = some n) :
    text ≠ [] ∧ (∀ c ∈ text, 48 ≤ c.toNat ∧ c.toNat ≤ 57) ∧
      n = valueOf (text.map fun c => c.toNat - 48) := by
  unfold plainNumber? at number
  split at number
  · next written =>
    simp only [Bool.and_eq_true, Bool.not_eq_true', List.all_eq_true, plainDigit?_isSome_iff]
      at written
    obtain ⟨nonempty, plain⟩ := written
    refine ⟨by simpa using nonempty, plain, ?_⟩
    obtain rfl := Option.some.inj number
    congr 1
    refine List.filterMap_eq_map_iff_forall_eq_some.mpr fun c member => ?_
    exact plainDigit?_of_digit (plain c member).1 (plain c member).2
  · cases number

end Inlay.Text
