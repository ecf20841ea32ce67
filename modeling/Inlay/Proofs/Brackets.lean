import Inlay.Infer.TypeText
import Inlay.Proofs.Text

/-!
Brackets in the texts of types.

Round, square, curly and angle brackets pair up. An arrow is written with an angle bracket that
pairs with none, so the scan of a text remembers, besides the brackets that are still open, whether
the last character was an equals sign. A text that is put inside of brackets, or before another
text, keeps its pairs unless it ends in an equals sign.
-/

namespace Inlay

namespace Text

/-- The bracket that closes what an opening bracket opens. -/
def closer? : Char → Option Char
  | '(' => some ')'
  | '[' => some ']'
  | '\x7b' => some '\x7d'
  | '<' => some '>'
  | _ => none

def isCloser (c : Char) : Bool := c == ')' || c == ']' || c == '\x7d' || c == '>'

/-- A point in a text: the brackets expected there, the innermost first, and whether an equals sign
was the last character. -/
structure Scan where
  expected : List Char
  afterEquals : Bool
  deriving DecidableEq

def Scan.start : Scan := ⟨[], false⟩

def Scan.step (scan : Scan) (c : Char) : Option Scan :=
  if scan.afterEquals && c == '>' then some ⟨scan.expected, false⟩
  else
    match closer? c with
    | some d => some ⟨d :: scan.expected, false⟩
    | none =>
      if isCloser c then
        match scan.expected with
        | d :: outer => if c = d then some ⟨outer, false⟩ else none
        | [] => none
      else some ⟨scan.expected, c == '='⟩

/-- The point at the end of a text that begins at a point, if no bracket closes another's pair. -/
def Scan.run (scan : Scan) (text : List Char) : Option Scan := text.foldlM Scan.step scan

/-- Every bracket of the text has its partner. -/
def Balanced (text : List Char) : Prop := ∃ last, Scan.start.run text = some ⟨[], last⟩

/-- The text is balanced and does not end in an equals sign. -/
def Closed (text : List Char) : Prop := Scan.start.run text = some Scan.start

instance (text : List Char) : Decidable (Closed text) :=
  inferInstanceAs (Decidable (Scan.start.run text = some Scan.start))

theorem Closed.balanced {text : List Char} (closed : Closed text) : Balanced text := ⟨false, closed⟩

namespace Scan

variable {scan next : Scan} {text : List Char}

@[simp]
theorem run_nil (scan : Scan) : scan.run [] = some scan := rfl

theorem run_cons (scan : Scan) (c : Char) (text : List Char) :
    scan.run (c :: text) = (scan.step c).bind (·.run text) := rfl

theorem run_singleton (scan : Scan) (c : Char) : scan.run [c] = scan.step c := by
  rw [run_cons]
  cases scan.step c <;> rfl

theorem run_append (scan : Scan) (a b : List Char) :
    scan.run (a ++ b) = (scan.run a).bind (·.run b) := List.foldlM_append

theorem run_append_of_run (ran : scan.run text = some next) (rest : List Char) :
    scan.run (text ++ rest) = next.run rest := by
  rw [run_append, ran, Option.bind_some]

/-- What a character may do at a point. -/
inductive StepsTo (c : Char) : Scan → Scan → Prop
  | arrow {expected : List Char} (isArrow : c = '>') : StepsTo c ⟨expected, true⟩ ⟨expected, false⟩
  | opens {expected : List Char} {afterEquals : Bool} {d : Char}
      (noArrow : ¬ (afterEquals && c == '>') = true) (opener : closer? c = some d) :
      StepsTo c ⟨expected, afterEquals⟩ ⟨d :: expected, false⟩
  | closes {outer : List Char} {afterEquals : Bool}
      (noArrow : ¬ (afterEquals && c == '>') = true) (noOpener : closer? c = none)
      (closer : isCloser c = true) : StepsTo c ⟨c :: outer, afterEquals⟩ ⟨outer, false⟩
  | plain {expected : List Char} {afterEquals : Bool}
      (noArrow : ¬ (afterEquals && c == '>') = true) (noOpener : closer? c = none)
      (noCloser : ¬ isCloser c = true) : StepsTo c ⟨expected, afterEquals⟩ ⟨expected, c == '='⟩

theorem step_eq_some_iff {c : Char} : scan.step c = some next ↔ StepsTo c scan next := by
  obtain ⟨expected, afterEquals⟩ := scan
  constructor
  · intro stepped
    unfold step at stepped
    dsimp only at stepped
    split at stepped
    · next isArrow =>
      obtain rfl := Option.some.inj stepped
      simp only [Bool.and_eq_true, beq_iff_eq] at isArrow
      obtain ⟨rfl, isArrow⟩ := isArrow
      exact .arrow isArrow
    · next noArrow =>
      split at stepped
      · next opener =>
        obtain rfl := Option.some.inj stepped
        exact .opens noArrow opener
      · next noOpener =>
        split at stepped
        · next closer =>
          cases expected with
          | nil => simp at stepped
          | cons d outer =>
            dsimp only at stepped
            split at stepped
            · next same =>
              obtain rfl := Option.some.inj stepped
              subst same
              exact .closes noArrow noOpener closer
            · simp at stepped
        · next noCloser =>
          obtain rfl := Option.some.inj stepped
          exact .plain noArrow noOpener noCloser
  · intro steps
    unfold step
    cases steps with
    | arrow isArrow => simp [isArrow]
    | opens noArrow opener => rw [if_neg noArrow, opener]
    | closes noArrow noOpener closer => rw [if_neg noArrow, noOpener]; simp [closer]
    | plain noArrow noOpener noCloser => rw [if_neg noArrow, noOpener]; simp [noCloser]

theorem eq_of_afterEquals {c : Char} (stepped : scan.step c = some next)
    (afterEquals : next.afterEquals = true) : c = '=' := by
  cases step_eq_some_iff.mp stepped with
  | arrow | opens | closes => simp at afterEquals
  | plain => simpa using afterEquals

/-- A step does not look at the brackets below those that it closes. -/
theorem step_frame {c : Char} (stepped : scan.step c = some next) (base : List Char) :
    step ⟨scan.expected ++ base, scan.afterEquals⟩ c =
      some ⟨next.expected ++ base, next.afterEquals⟩ := by
  apply step_eq_some_iff.mpr
  cases step_eq_some_iff.mp stepped with
  | arrow isArrow => exact .arrow isArrow
  | opens noArrow opener => exact .opens noArrow opener
  | closes noArrow noOpener closer => exact .closes noArrow noOpener closer
  | plain noArrow noOpener noCloser => exact .plain noArrow noOpener noCloser

theorem run_frame (ran : scan.run text = some next) (base : List Char) :
    run ⟨scan.expected ++ base, scan.afterEquals⟩ text =
      some ⟨next.expected ++ base, next.afterEquals⟩ := by
  induction text generalizing scan with
  | nil =>
    obtain rfl := Option.some.inj ran
    rfl
  | cons c rest ih =>
    obtain ⟨middle, stepped, ran⟩ := Option.bind_eq_some_iff.mp ran
    rw [run_cons, step_frame stepped base]
    exact ih ran

end Scan

open Scan

section

variable {a b text : List Char}

theorem Closed.run (closed : Closed text) (base : List Char) :
    Scan.run ⟨base, false⟩ text = some ⟨base, false⟩ := run_frame closed base

theorem Closed.append (closed : Closed a) (closed' : Closed b) : Closed (a ++ b) := by
  unfold Closed at *
  rw [run_append_of_run closed, closed']

/-- What stands between an opening bracket and its partner may be any closed text. -/
theorem Closed.within (closed : Closed text) (d : Char) {front back : List Char}
    (opens : start.run front = some ⟨[d], false⟩)
    (closes : Scan.run ⟨[d], false⟩ back = some start) : Closed (front ++ text ++ back) := by
  unfold Closed
  rw [List.append_assoc, run_append_of_run opens, run_append_of_run (closed.run [d]), closes]

theorem Closed.intercalate {separator : List Char} {pieces : List (List Char)}
    (separates : Closed separator) (closed : ∀ piece ∈ pieces, Closed piece) :
    Closed (separator.intercalate pieces) := by
  induction pieces with
  | nil => rfl
  | cons first rest ih =>
    have closed' := ih fun piece isPiece => closed piece (.tail _ isPiece)
    cases rest with
    | nil => simpa using closed first (.head _)
    | cons second rest =>
      rw [List.intercalate_cons_cons]
      exact ((closed first (.head _)).append separates).append closed'

/-- An equals sign at the end does no harm before a text that begins with no bracket. -/
theorem Balanced.append {c : Char} (balanced : Balanced a) (closed : Closed (c :: b))
    (noCloser : c ≠ '>') : Closed (a ++ c :: b) := by
  obtain ⟨last, ran⟩ := balanced
  unfold Closed at *
  have same : step ⟨[], last⟩ c = start.step c := by
    simp [step, start, noCloser]
  rw [run_append_of_run ran, run_cons, same]
  exact closed

end

/-! ## The partner of an opening bracket -/

/-- The bracket that the opening leaves open has its partner at the very end of the text, for no
beginning that goes on from the opening is balanced before. -/
def PairsAtEnd (opening rest : List Char) : Prop :=
  ∀ front back, rest = front ++ back → back ≠ [] → ¬ Balanced (opening ++ front)

namespace Scan

variable {scan : Scan} {text expected : List Char} {d : Char} {afterEquals : Bool}

/-- A step that does not close the outermost bracket can be taken without it. -/
theorem step_lift {c : Char} (stepped : step ⟨expected ++ [d], afterEquals⟩ c = some scan)
    (isOpen : scan.expected ≠ []) : ∃ inner, scan.expected = inner ++ [d] ∧
      step ⟨expected, afterEquals⟩ c = some ⟨inner, scan.afterEquals⟩ := by
  simp only [step_eq_some_iff] at stepped ⊢
  generalize whole : expected ++ [d] = all at stepped
  cases stepped with
  | arrow isArrow => exact ⟨expected, whole.symm, .arrow isArrow⟩
  | @opens _ _ e noArrow opener =>
    exact ⟨e :: expected, by rw [← whole]; rfl, .opens noArrow opener⟩
  | @closes outer _ noArrow noOpener closer =>
    cases expected with
    | nil =>
      obtain ⟨_, rfl⟩ := List.cons.inj whole
      exact (isOpen rfl).elim
    | cons e inner =>
      obtain ⟨rfl, rfl⟩ := List.cons.inj whole
      exact ⟨inner, rfl, .closes noArrow noOpener closer⟩
  | plain noArrow noOpener noCloser =>
    exact ⟨expected, whole.symm, .plain noArrow noOpener noCloser⟩

theorem step_closes (stepped : step ⟨expected ++ ['>'], afterEquals⟩ '>' = some start) :
    expected = [] ∧ afterEquals = false := by
  cases afterEquals with
  | true => simp [step, start] at stepped
  | false =>
    cases expected with
    | nil => exact ⟨rfl, rfl⟩
    | cons c outer => simp [step, closer?, isCloser, start] at stepped

/-- A run that never closes the outermost bracket can be made without it. -/
theorem run_lift (ran : run ⟨expected ++ [d], afterEquals⟩ text = some scan)
    (isOpen : ∀ front back, text = front ++ back → ∀ last,
      run ⟨expected ++ [d], afterEquals⟩ front ≠ some ⟨[], last⟩) :
    ∃ inner, scan.expected = inner ++ [d] ∧
      run ⟨expected, afterEquals⟩ text = some ⟨inner, scan.afterEquals⟩ := by
  induction text generalizing expected afterEquals with
  | nil =>
    obtain rfl := Option.some.inj ran
    exact ⟨expected, rfl, rfl⟩
  | cons c rest ih =>
    obtain ⟨middle, stepped, ran⟩ := Option.bind_eq_some_iff.mp ran
    have middleOpen : middle.expected ≠ [] := by
      intro closed
      refine isOpen [c] rest rfl middle.afterEquals ?_
      rw [run_cons, stepped, Option.bind_some, run_nil, ← closed]
    obtain ⟨inner, isInner, lifted⟩ := step_lift stepped middleOpen
    have isMiddle : middle = ⟨inner ++ [d], middle.afterEquals⟩ := by rw [← isInner]
    rw [isMiddle] at ran stepped
    have restOpen : ∀ front back, rest = front ++ back → ∀ last,
        run ⟨inner ++ [d], middle.afterEquals⟩ front ≠ some ⟨[], last⟩ := by
      intro front back split last closed
      refine isOpen (c :: front) back (by simp [split]) last ?_
      rw [run_cons, stepped, Option.bind_some, closed]
    obtain ⟨inner', isInner', liftedRest⟩ := ih ran restOpen
    refine ⟨inner', isInner', ?_⟩
    rw [run_cons, lifted, Option.bind_some, liftedRest]

end Scan

section

variable {opening inner : List Char}

theorem balanced_append_iff (opens : start.run opening = some ⟨['>'], false⟩) :
    Balanced (opening ++ inner) ↔ ∃ last, Scan.run ⟨['>'], false⟩ inner = some ⟨[], last⟩ := by
  unfold Balanced
  rw [run_append_of_run opens]

/-- Around a balanced text, a pair of angle brackets is one. -/
theorem Balanced.pairsAtEnd (balanced : Balanced inner)
    (opens : start.run opening = some ⟨['>'], false⟩) : PairsAtEnd opening (inner ++ ['>']) := by
  intro front back split nonempty early
  obtain ⟨back, last, rfl⟩ := (List.eq_nil_or_concat back).resolve_left nonempty
  rw [List.concat_eq_append, ← List.append_assoc] at split
  obtain ⟨rfl, _⟩ := List.append_inj' split rfl
  obtain ⟨_, ran⟩ := balanced
  rw [run_append] at ran
  obtain ⟨middle, ran, _⟩ := Option.bind_eq_some_iff.mp ran
  obtain ⟨last, closed⟩ := (balanced_append_iff opens).mp early
  have isOpen : Scan.run ⟨['>'], false⟩ front = some ⟨middle.expected ++ ['>'], _⟩ :=
    run_frame ran ['>']
  simp [isOpen] at closed

/-- Inside a closed text that begins with an opening bracket and ends in one that may be its
partner, the brackets are closed just if it is. -/
theorem pairsAtEnd_iff (opens : start.run opening = some ⟨['>'], false⟩)
    (closed : Closed (opening ++ inner ++ ['>'])) :
    PairsAtEnd opening (inner ++ ['>']) ↔ Closed inner := by
  refine ⟨fun pairs => ?_, fun closed => closed.balanced.pairsAtEnd opens⟩
  unfold Closed at closed
  rw [List.append_assoc, run_append_of_run opens, run_append] at closed
  obtain ⟨middle, ran, stepped⟩ := Option.bind_eq_some_iff.mp closed
  have isOpen : ∀ front back, inner = front ++ back → ∀ last,
      Scan.run ⟨['>'], false⟩ front ≠ some ⟨[], last⟩ := by
    intro front back split last early
    refine pairs front (back ++ ['>']) (by simp [split]) (by simp) ?_
    exact (balanced_append_iff opens).mpr ⟨last, early⟩
  obtain ⟨expected, isExpected, lifted⟩ := @run_lift middle inner [] '>' false ran isOpen
  have isMiddle : middle = ⟨expected ++ ['>'], middle.afterEquals⟩ := by rw [← isExpected]
  rw [isMiddle, run_singleton] at stepped
  obtain ⟨rfl, last⟩ := step_closes stepped
  rw [last] at lifted
  exact lifted

end

end Text

/-! ## Texts put together -/

namespace TypeText

open Inlay.Text

theorem closed_intercalate {separator : String} {pieces : List String}
    (separates : Closed separator.toList) (closed : ∀ piece ∈ pieces, Closed piece.toList) :
    Closed (separator.intercalate pieces).toList := by
  rw [String.toList_intercalate]
  refine separates.intercalate fun piece isPiece => ?_
  obtain ⟨text, isText, rfl⟩ := List.mem_map.mp isPiece
  exact closed text isText

section

variable {type name : String} {types : List String}

theorem closed_wrap (closed : Closed type.toList) : Closed (wrap type).toList := by
  unfold wrap
  dsimp only
  split
  · rw [String.toList_append, String.toList_append]
    exact closed.within ')' (by decide) (by decide)
  · exact closed

theorem closed_union (closed : ∀ type ∈ types, Closed type.toList) :
    Closed (union types).toList :=
  closed_intercalate (by decide) fun type isType => closed type (List.mem_eraseDups.mp isType)

theorem closed_array (closed : Closed type.toList) : Closed (array type).toList := by
  rw [array, String.toList_append]
  exact (closed_wrap closed).append (by decide)

theorem closed_object (closed : ∀ type ∈ types, Closed type.toList) :
    Closed (object types).toList := by
  unfold object
  split
  · decide
  · rw [String.toList_append, String.toList_append]
    exact (closed_intercalate (by decide) closed).within '\x7d' (by decide) (by decide)

/-- A name is followed by a colon, so it may end as it likes. -/
theorem closed_member (balanced : Balanced name.toList) (closed : Closed type.toList) :
    Closed (member name type).toList := by
  have rest : Closed (": ".toList ++ type.toList ++ ";".toList) :=
    (Closed.append (by decide) closed).append (by decide)
  simp only [member, String.toList_append, List.append_assoc] at rest ⊢
  exact balanced.append rest (by decide)

theorem closed_parameter (balanced : Balanced name.toList) (isOptional : Bool)
    (closed : Closed type.toList) : Closed (parameter name isOptional type).toList := by
  have rest : Closed (": ".toList ++ type.toList) := Closed.append (by decide) closed
  have rest' : Closed ("?".toList ++ (": ".toList ++ type.toList)) :=
    Closed.append (by decide) rest
  cases isOptional with
  | true =>
    simp only [parameter, String.toList_append, List.append_assoc]
    exact balanced.append rest' (by decide)
  | false =>
    simp only [parameter, String.toList_append, List.append_assoc]
    exact balanced.append rest (by decide)

theorem closed_function {parameters : List String}
    (closed : ∀ parameter ∈ parameters, Closed parameter.toList) (closed' : Closed type.toList) :
    Closed (function parameters type).toList := by
  have head : Closed ("(".toList ++ (", ".intercalate parameters).toList ++ ") => ".toList) :=
    (closed_intercalate (by decide) closed).within ')' (by decide) (by decide)
  simp only [function, String.toList_append]
  exact head.append closed'

theorem closed_promise (closed : Closed type.toList) : Closed (promise type).toList := by
  simp only [promise, String.toList_append]
  exact closed.within '>' (by decide) (by decide)

theorem closed_typeofName (closed : Closed name.toList) : Closed (typeofName name).toList := by
  simp only [typeofName, String.toList_append]
  exact Closed.append (by decide) closed

end

end TypeText

end Inlay
