import Mathlib.Data.List.Forall2
import Inlay.Text.Blank
import Inlay.Proofs.Brackets
import Inlay.Proofs.Heredity

/-!
How the texts of types are read.

Square brackets after a type bind tightest, then bars, and an arrow takes all that follows it. So a
text that begins with parameters and an arrow is a function type to its end, and elsewhere an arrow
may only stand inside of brackets. Every other text is cut at the bars outside of brackets. Names,
object types and types with arguments are not looked into.
-/

namespace Inlay.TypeText

open Inlay.Text
open Inlay.Infer (Passes)

/-- What the text of a type means. -/
inductive Reading
  | plain (text : List Char)
  | array (element : Reading)
  | function (parameters : List Char) (returned : Reading)
  | either (left right : Reading)
  deriving DecidableEq

namespace Reading

/-- The members of a union, which may hold others. Any other type is its only member. -/
def members : Reading → List Reading
  | .either left right => left.members ++ right.members
  | .plain text => [.plain text]
  | .array element => [.array element]
  | .function parameters returned => [.function parameters returned]

def join : List Reading → Option Reading
  | [] => none
  | [type] => some type
  | type :: rest => (join rest).map (.either type)

theorem members_join {types : List Reading} {type : Reading} (joined : join types = some type) :
    type.members = types.flatMap members := by
  induction types generalizing type with
  | nil => simp [join] at joined
  | cons first rest ih =>
    cases rest with
    | nil =>
      obtain rfl := Option.some.inj joined
      simp
    | cons second rest =>
      obtain ⟨later, isLater, rfl⟩ := Option.map_eq_some_iff.mp joined
      rw [members, ih isLater]
      rfl

theorem exists_join {types : List Reading} (nonempty : types ≠ []) :
    ∃ type, join types = some type := by
  induction types with
  | nil => exact (nonempty rfl).elim
  | cons first rest ih =>
    cases rest with
    | nil => exact ⟨first, rfl⟩
    | cons second rest =>
      obtain ⟨later, joined⟩ := ih (by simp)
      exact ⟨.either first later, by simp [join, joined]⟩

theorem length_members_pos (type : Reading) : 0 < type.members.length := by
  induction type with
  | either left right ihLeft ihRight => simp only [members, List.length_append]; omega
  | plain => simp [members]
  | array => simp [members]
  | function => simp [members]

end Reading

/-! ## Cutting texts outside of brackets -/

/-- The text before the bracket that closes the last of those expected, and the text after it. -/
def closing? (scan : Scan) : List Char → Option (List Char × List Char)
  | [] => none
  | c :: rest =>
    match scan.step c with
    | none => none
    | some next =>
      if next.expected.isEmpty then some ([], rest)
      else (closing? next rest).map fun (inner, after) => (c :: inner, after)

/-- What the parentheses hold that a text begins with, and the text after them. -/
def group? : List Char → Option (List Char × List Char)
  | '(' :: rest => closing? ⟨[')'], false⟩ rest
  | _ => none

/-- The parameters and the returned type, if the text begins as a function type. -/
def signature? (text : List Char) : Option (List Char × List Char) :=
  (group? (text.dropWhile isBlank)).bind fun (parameters, rest) =>
    (after? ['=', '>'] (rest.dropWhile isBlank)).map fun returned => (parameters, returned)

/-- Whether an arrow or an ampersand stands outside of brackets. -/
def isLoose (scan : Scan) : List Char → Bool
  | [] => false
  | c :: rest =>
    scan.expected.isEmpty && (scan.afterEquals && c == '>' || c == '&') ||
      (scan.step c).any (isLoose · rest)

/-- The pieces between the bars outside of brackets. -/
def pieces (scan : Scan) : List Char → List (List Char)
  | [] => [[]]
  | c :: rest =>
    match scan.step c with
    | none => [c :: rest]
    | some next =>
      if c == '|' && scan.expected.isEmpty then [] :: pieces next rest
      else (pieces next rest).modifyHead (c :: ·)

/-! ## Reading -/

section

variable (deeper : List Char → Option Reading)

/-- A type in parentheses, or one that is not looked into. -/
def readPrimary (text : List Char) : Option Reading :=
  match group? text with
  | some (inner, rest) => if rest.isEmpty then deeper inner else none
  | none => some (.plain text)

/-- A type with square brackets after it. The text is given from its end. -/
def readSuffixed : List Char → Option Reading
  | [] => none
  | ']' :: '[' :: rest => (readSuffixed rest).map .array
  | c :: rest => if isBlank c then readSuffixed rest else readPrimary deeper (c :: rest).reverse

def readPiece (piece : List Char) : Option Reading :=
  readSuffixed deeper (piece.dropWhile isBlank).reverse

def readType (text : List Char) : Option Reading :=
  if Closed text then
    match signature? text with
    | some (parameters, returned) => (deeper returned).map (.function parameters)
    | none =>
      if isLoose Scan.start text then none
      else ((pieces Scan.start text).mapM (readPiece deeper)).bind Reading.join
  else none

end

/-- A text read with a number of parentheses and arrows in each other. -/
def readWithin : (depth : Nat) → List Char → Option Reading
  | 0, _ => none
  | depth + 1, text => readType (readWithin depth) text

def Reads (text : String) (type : Reading) : Prop :=
  ∃ depth, readWithin depth text.toList = some type

/-! ## Brackets and blanks -/

section

variable {scan next : Scan} {text inner after : List Char} {c : Char}

theorem step_blank (blank : isBlank c = true) (scan : Scan) :
    scan.step c = some ⟨scan.expected, false⟩ := by
  have other : ∀ d, isBlank d = false → c ≠ d := by
    rintro d notBlank rfl
    simp [blank] at notBlank
  have opens : closer? c = none := by
    unfold closer?
    split <;> first | rfl | exact absurd blank (by decide)
  have closes : isCloser c = false := by
    simp [isCloser, other ')' (by decide), other ']' (by decide), other '\x7d' (by decide),
      other '>' (by decide)]
  simp [Scan.step, other '>' (by decide), other '=' (by decide), opens, closes]

theorem run_dropWhile (text : List Char) :
    Scan.start.run (text.dropWhile isBlank) = Scan.start.run text := by
  induction text with
  | nil => rfl
  | cons c rest ih =>
    cases blank : isBlank c with
    | true => rw [List.dropWhile_cons_of_pos blank, ih, Scan.run_cons, step_blank blank]; rfl
    | false => rw [List.dropWhile_cons_of_neg (by simp [blank])]

theorem closing?_cons_eq_some_iff : closing? scan (c :: text) = some (inner, after) ↔
    ∃ next, scan.step c = some next ∧
      (next.expected = [] ∧ inner = [] ∧ after = text ∨
        next.expected ≠ [] ∧ ∃ front, inner = c :: front ∧
          closing? next text = some (front, after)) := by
  rw [closing?]
  cases stepped : scan.step c with
  | none => simp
  | some next =>
    by_cases closed : next.expected = []
    · simp [closed, eq_comm]
    · have isOpen : ¬ next.expected.isEmpty = true := by simpa using closed
      dsimp only
      rw [if_neg isOpen, Option.map_eq_some_iff]
      constructor
      · rintro ⟨⟨front, after⟩, found, same⟩
        obtain ⟨rfl, rfl⟩ := Prod.mk.inj same
        exact ⟨next, rfl, .inr ⟨closed, front, rfl, found⟩⟩
      · rintro ⟨other, same, parts⟩
        obtain rfl := Option.some.inj same
        rcases parts with ⟨early, _⟩ | ⟨_, front, rfl, found⟩
        · exact (closed early).elim
        · exact ⟨(front, after), found, rfl⟩

theorem closing?_append (found : closing? scan text = some (inner, after)) (rest : List Char) :
    closing? scan (text ++ rest) = some (inner, after ++ rest) := by
  induction text generalizing scan inner with
  | nil => simp [closing?] at found
  | cons c text ih =>
    obtain ⟨next, stepped, ⟨closed, rfl, rfl⟩ | ⟨isOpen, front, rfl, later⟩⟩ :=
      closing?_cons_eq_some_iff.mp found
    · exact closing?_cons_eq_some_iff.mpr ⟨next, stepped, .inl ⟨closed, rfl, rfl⟩⟩
    · exact closing?_cons_eq_some_iff.mpr ⟨next, stepped, .inr ⟨isOpen, front, rfl, ih later⟩⟩

theorem closing?_split (found : closing? scan text = some (inner, after)) :
    ∃ d next, text = inner ++ d :: after ∧ scan.run (inner ++ [d]) = some next ∧
      next.expected = [] := by
  induction text generalizing scan inner with
  | nil => simp [closing?] at found
  | cons c text ih =>
    obtain ⟨next, stepped, ⟨closed, rfl, rfl⟩ | ⟨isOpen, front, rfl, later⟩⟩ :=
      closing?_cons_eq_some_iff.mp found
    · exact ⟨c, next, rfl, by rw [List.nil_append, Scan.run_singleton, stepped], closed⟩
    · obtain ⟨d, last, rfl, ran, closed⟩ := ih later
      refine ⟨d, last, rfl, ?_, closed⟩
      rw [List.cons_append, Scan.run_cons, stepped, Option.bind_some, ran]

/-- A text after which all is closed has a place where the last bracket is. -/
theorem exists_closing? (ran : scan.run text = some next) (closed : next.expected = [])
    (isOpen : scan.expected ≠ []) : ∃ inner after, closing? scan text = some (inner, after) := by
  induction text generalizing scan with
  | nil =>
    obtain rfl := Option.some.inj ran
    exact (isOpen closed).elim
  | cons c text ih =>
    obtain ⟨middle, stepped, ran⟩ := Option.bind_eq_some_iff.mp ran
    by_cases closedHere : middle.expected = []
    · exact ⟨[], text, closing?_cons_eq_some_iff.mpr
        ⟨middle, stepped, .inl ⟨closedHere, rfl, rfl⟩⟩⟩
    · obtain ⟨front, after, found⟩ := ih ran closedHere
      exact ⟨c :: front, after, closing?_cons_eq_some_iff.mpr
        ⟨middle, stepped, .inr ⟨closedHere, front, rfl, found⟩⟩⟩

/-- The partner of a bracket before a closed text is the one after it. -/
theorem closing?_of_run (ran : scan.run inner = some Scan.start) (rest : List Char) :
    closing? ⟨scan.expected ++ [')'], scan.afterEquals⟩ (inner ++ ')' :: rest) =
      some (inner, rest) := by
  induction inner generalizing scan with
  | nil =>
    obtain rfl := Option.some.inj ran
    rfl
  | cons c inner ih =>
    obtain ⟨middle, stepped, ran⟩ := Option.bind_eq_some_iff.mp ran
    exact closing?_cons_eq_some_iff.mpr
      ⟨_, Scan.step_frame stepped [')'], .inr ⟨by simp, inner, rfl, ih ran⟩⟩

theorem group?_of_closed (closed : Closed inner) (rest : List Char) :
    group? ('(' :: inner ++ ')' :: rest) = some (inner, rest) :=
  closing?_of_run closed rest

theorem group?_append (found : group? text = some (inner, after)) (rest : List Char) :
    group? (text ++ rest) = some (inner, after ++ rest) := by
  unfold group? at found
  split at found
  · exact closing?_append found rest
  · simp at found

/-- Text that is put after a closed one does not make it begin with parentheses. -/
theorem group?_append_eq_none (closed : Closed text) (nonempty : text ≠ [])
    (missing : group? text = none) (rest : List Char) : group? (text ++ rest) = none := by
  obtain ⟨c, text, rfl⟩ := List.exists_cons_of_ne_nil nonempty
  by_cases isOpen : c = '('
  · subst isOpen
    obtain ⟨inner, after, found⟩ := @exists_closing? ⟨[')'], false⟩ _ text closed rfl (by simp)
    simp [group?, found] at missing
  · unfold group?
    split
    · next same =>
      exact (isOpen (List.cons.inj same).1).elim
    · rfl

/-! ### Signatures -/

theorem signature?_eq_some_iff {parameters returned : List Char} :
    signature? text = some (parameters, returned) ↔
      ∃ rest, group? (text.dropWhile isBlank) = some (parameters, rest) ∧
        rest.dropWhile isBlank = '=' :: '>' :: returned := by
  unfold signature?
  simp only [Option.bind_eq_some_iff, Option.map_eq_some_iff, after?_eq_some_iff]
  constructor
  · rintro ⟨⟨parameters, rest⟩, found, returned, arrow, same⟩
    obtain ⟨rfl, rfl⟩ := Prod.mk.inj same
    exact ⟨rest, found, arrow⟩
  · rintro ⟨rest, found, arrow⟩
    exact ⟨(parameters, rest), found, returned, arrow, rfl⟩

/-- An arrow takes what is put after a function type. -/
theorem signature?_append {parameters returned : List Char}
    (found : signature? text = some (parameters, returned)) (rest : List Char) :
    signature? (text ++ rest) = some (parameters, returned ++ rest) := by
  obtain ⟨middle, found, arrow⟩ := signature?_eq_some_iff.mp found
  have nonempty : text.dropWhile isBlank ≠ [] := by
    intro empty
    simp [empty, group?] at found
  refine signature?_eq_some_iff.mpr ⟨middle ++ rest, ?_, ?_⟩
  · rw [List.dropWhile_append, if_neg (by simpa using nonempty)]
    exact group?_append found rest
  · rw [List.dropWhile_append, if_neg (by simp [arrow]), arrow]
    rfl

theorem group?_of_append {rest later : List Char} (closed : Closed text)
    (begins : rest.dropWhile isBlank = c :: later) (noOpener : c ≠ '(')
    (found : group? ((text ++ rest).dropWhile isBlank) = some (inner, after)) :
    ∃ own, group? (text.dropWhile isBlank) = some (inner, own) ∧ after = own ++ rest := by
  rw [List.dropWhile_append] at found
  split at found
  · rw [begins] at found
    unfold group? at found
    split at found
    · next same => exact (noOpener (List.cons.inj same).1).elim
    · simp at found
  · next nonempty =>
    have closed' : Closed (text.dropWhile isBlank) := by rwa [Closed, run_dropWhile]
    cases own : group? (text.dropWhile isBlank) with
    | none =>
      rw [group?_append_eq_none closed' (by simpa using nonempty) own] at found
      simp at found
    | some parts =>
      rw [group?_append own] at found
      obtain ⟨rfl, rfl⟩ := Prod.mk.inj (Option.some.inj found)
      exact ⟨parts.2, rfl, rfl⟩

theorem arrow_of_append {rest later returned : List Char} (noCloser : rest.head? ≠ some '>')
    (begins : rest.dropWhile isBlank = c :: later) (noArrow : c ≠ '=')
    (arrow : (text ++ rest).dropWhile isBlank = '=' :: '>' :: returned) :
    ∃ own, text.dropWhile isBlank = '=' :: '>' :: own := by
  rw [List.dropWhile_append] at arrow
  split at arrow
  · rw [begins] at arrow
    exact (noArrow (List.cons.inj arrow).1).elim
  · next nonempty =>
    cases own : text.dropWhile isBlank with
    | nil => simp [own] at nonempty
    | cons d more =>
      rw [own, List.cons_append] at arrow
      obtain ⟨rfl, closes⟩ := List.cons.inj arrow
      cases more with
      | nil =>
        rw [List.nil_append] at closes
        simp [closes] at noCloser
      | cons e more =>
        obtain ⟨rfl, _⟩ := List.cons.inj closes
        exact ⟨more, rfl⟩

/-- A text that neither ends an arrow nor begins with one or with parentheses makes no function type
of a closed text before it. -/
theorem signature?_append_eq_none (closed : Closed text) (missing : signature? text = none)
    {rest later : List Char} (noCloser : rest.head? ≠ some '>')
    (begins : rest.dropWhile isBlank = c :: later) (noArrow : c ≠ '=') (noOpener : c ≠ '(') :
    signature? (text ++ rest) = none := by
  cases found : signature? (text ++ rest) with
  | none => rfl
  | some parts =>
    obtain ⟨middle, grouped, arrow⟩ := signature?_eq_some_iff.mp found
    obtain ⟨own, ownGroup, rfl⟩ := group?_of_append closed begins noOpener grouped
    obtain ⟨returned, ownArrow⟩ := arrow_of_append noCloser begins noArrow arrow
    have isSignature := signature?_eq_some_iff.mpr ⟨own, ownGroup, ownArrow⟩
    simp [missing] at isSignature

theorem signature?_bar (closed : Closed text) (missing : signature? text = none)
    (rest : List Char) : signature? (text ++ (" | ".toList ++ rest)) = none :=
  signature?_append_eq_none closed missing (by simp) (by rfl : _ = '|' :: ' ' :: rest) (by decide)
    (by decide)

/-! ### Arrows outside of brackets -/

theorem isLoose_append (ran : scan.run text = some next) (rest : List Char) :
    isLoose scan (text ++ rest) = (isLoose scan text || isLoose next rest) := by
  induction text generalizing scan with
  | nil =>
    obtain rfl := Option.some.inj ran
    simp [isLoose]
  | cons c text ih =>
    obtain ⟨middle, stepped, ran⟩ := Option.bind_eq_some_iff.mp ran
    simp only [List.cons_append, isLoose, stepped, Option.any_some, ih ran, Bool.or_assoc]

theorem isLoose_dropWhile (text : List Char) :
    isLoose Scan.start (text.dropWhile isBlank) = isLoose Scan.start text := by
  induction text with
  | nil => rfl
  | cons c rest ih =>
    cases blank : isBlank c with
    | false => rw [List.dropWhile_cons_of_neg (by simp [blank])]
    | true =>
      have notLoose : c ≠ '&' := by
        rintro rfl
        exact absurd blank (by decide)
      rw [List.dropWhile_cons_of_pos blank, ih, isLoose, step_blank blank]
      simp [Scan.start, notLoose]

/-- Inside of brackets nothing is loose. -/
theorem isLoose_of_run (ran : scan.run text = some next) (d : Char) :
    isLoose ⟨scan.expected ++ [d], scan.afterEquals⟩ text = false := by
  induction text generalizing scan with
  | nil => rfl
  | cons c text ih =>
    obtain ⟨middle, stepped, ran⟩ := Option.bind_eq_some_iff.mp ran
    simp [isLoose, Scan.step_frame stepped, ih ran]

theorem isLoose_within (closed : Closed text) (d : Char) {front back : List Char}
    (opens : Scan.start.run front = some ⟨[d], false⟩)
    (frontTight : isLoose Scan.start front = false)
    (backTight : isLoose ⟨[d], false⟩ back = false) :
    isLoose Scan.start (front ++ text ++ back) = false := by
  have inside : isLoose ⟨[d], false⟩ text = false := isLoose_of_run closed d
  rw [List.append_assoc, isLoose_append opens, isLoose_append (closed.run [d]), frontTight, inside,
    backTight]
  rfl

theorem isLoose_arrow {returned : List Char} (closed : scan.expected = [])
    (arrow : text.dropWhile isBlank = '=' :: '>' :: returned) : isLoose scan text = true := by
  induction text generalizing scan with
  | nil => simp at arrow
  | cons c text ih =>
    cases blank : isBlank c with
    | true =>
      rw [List.dropWhile_cons_of_pos blank] at arrow
      simp [isLoose, step_blank blank, @ih ⟨scan.expected, false⟩ closed arrow]
    | false =>
      rw [List.dropWhile_cons_of_neg (by simp [blank])] at arrow
      obtain ⟨rfl, rfl⟩ := List.cons.inj arrow
      have stepped : scan.step '=' = some ⟨[], true⟩ := by
        simp [Scan.step, closer?, isCloser, closed]
      simp [isLoose, stepped]

theorem isLoose_of_signature? {parts : List Char × List Char}
    (found : signature? text = some parts) : isLoose Scan.start text = true := by
  obtain ⟨parameters, returned⟩ := parts
  obtain ⟨rest, found, arrow⟩ := signature?_eq_some_iff.mp found
  rw [← isLoose_dropWhile]
  unfold group? at found
  split at found
  · next text' same =>
    rw [same]
    obtain ⟨d, next, rfl, ran, closed⟩ := closing?_split found
    have opened : Scan.start.run ('(' :: (parameters ++ [d])) = some next := ran
    have whole : '(' :: (parameters ++ d :: rest) = '(' :: (parameters ++ [d]) ++ rest := by simp
    rw [whole, isLoose_append opened, isLoose_arrow closed arrow, Bool.or_true]
  · simp at found

/-! ### Pieces -/

theorem modifyHead_append (front later : List Char) (parts : List (List Char)) :
    (parts.modifyHead (later ++ ·)).modifyHead (front ++ ·) =
      parts.modifyHead (front ++ later ++ ·) := by
  cases parts <;> simp

/-- The last piece of a text goes on with the first of the text after it. -/
theorem pieces_append (ran : scan.run text = some next) : ∃ front last,
    pieces scan text = front ++ [last] ∧
    ∀ rest, pieces scan (text ++ rest) = front ++ (pieces next rest).modifyHead (last ++ ·) := by
  induction text generalizing scan with
  | nil =>
    obtain rfl := Option.some.inj ran
    refine ⟨[], [], rfl, fun rest => ?_⟩
    cases isPieces : pieces scan rest <;> simp [isPieces]
  | cons c text ih =>
    obtain ⟨middle, stepped, ran⟩ := Option.bind_eq_some_iff.mp ran
    obtain ⟨front, last, isPieces, appended⟩ := ih ran
    by_cases bar : (c == '|' && scan.expected.isEmpty) = true
    · refine ⟨[] :: front, last, ?_, fun rest => ?_⟩
      · simp only [pieces, stepped, bar, if_true, isPieces, List.cons_append]
      · simp only [List.cons_append, pieces, stepped, bar, if_true, appended rest]
    · cases front with
      | nil =>
        refine ⟨[], c :: last, ?_, fun rest => ?_⟩
        · simp [pieces, stepped, bar, isPieces]
        · simp only [List.cons_append, pieces, stepped, bar, appended rest]
          exact modifyHead_append [c] last (pieces next rest)
      | cons first front =>
        refine ⟨(c :: first) :: front, last, ?_, fun rest => ?_⟩
        · simp [pieces, stepped, bar, isPieces]
        · simp [pieces, stepped, bar, appended rest]

/-- Inside of brackets no bar cuts. -/
theorem pieces_of_run (ran : scan.run text = some next) (d : Char) :
    pieces ⟨scan.expected ++ [d], scan.afterEquals⟩ text = [text] := by
  induction text generalizing scan with
  | nil => rfl
  | cons c text ih =>
    obtain ⟨middle, stepped, ran⟩ := Option.bind_eq_some_iff.mp ran
    simp [pieces, Scan.step_frame stepped, ih ran]

theorem pieces_append_whole (ran : scan.run text = some next) (whole : pieces scan text = [text])
    (rest : List Char) :
    pieces scan (text ++ rest) = (pieces next rest).modifyHead (text ++ ·) := by
  obtain ⟨front, last, isPieces, appended⟩ := pieces_append ran
  rw [whole, ← List.nil_append [text]] at isPieces
  obtain ⟨rfl, same⟩ := List.append_inj' isPieces rfl
  obtain rfl := List.singleton_inj.mp same
  rw [appended, List.nil_append]

/-- A text in brackets is one piece, with whatever stands around the brackets. -/
theorem pieces_within (closed : Closed text) (d : Char) {front back : List Char}
    (opens : Scan.start.run front = some ⟨[d], false⟩)
    (frontWhole : pieces Scan.start front = [front])
    (backWhole : pieces ⟨[d], false⟩ back = [back]) :
    pieces Scan.start (front ++ text ++ back) = [front ++ text ++ back] := by
  have inside : pieces ⟨[d], false⟩ (text ++ back) = [text ++ back] := by
    rw [pieces_append_whole (closed.run [d]) (pieces_of_run closed d), backWhole]
    rfl
  rw [List.append_assoc, pieces_append_whole opens frontWhole, inside]
  rfl

theorem pieces_of_not_mem (ran : scan.run text = some next) (barless : '|' ∉ text) :
    pieces scan text = [text] := by
  induction text generalizing scan with
  | nil => rfl
  | cons c text ih =>
    obtain ⟨middle, stepped, ran⟩ := Option.bind_eq_some_iff.mp ran
    simp only [List.mem_cons, not_or] at barless
    simp [pieces, stepped, ih ran barless.2, Ne.symm barless.1]

end

/-! ## More depth -/

section

variable {few many : List Char → Option Reading}

theorem readSuffixed_passes (passes : ∀ text, Passes (fun _ => True) (few text) (many text))
    (text : List Char) :
    Passes (fun _ => True) (readSuffixed few text) (readSuffixed many text) := by
  induction text using readSuffixed.induct with
  | case1 => exact .none _ _
  | case2 rest ih => exact ih.map fun _ _ => trivial
  | case3 c rest _ blank ih =>
    rw [readSuffixed, readSuffixed, if_pos blank, if_pos blank] <;> assumption
  | case4 c rest _ notBlank =>
    rw [readSuffixed, readSuffixed, if_neg notBlank, if_neg notBlank]
    all_goals first | assumption | skip
    unfold readPrimary
    split
    · exact .ite (passes _) (.refl _)
    · exact .refl _

theorem readType_passes (passes : ∀ text, Passes (fun _ => True) (few text) (many text))
    (text : List Char) : Passes (fun _ => True) (readType few text) (readType many text) := by
  unfold readType
  refine .ite ?_ (.refl _)
  split
  · exact (passes _).map fun _ _ => trivial
  · refine .ite (.refl _) ?_
    exact (Passes.mapM _ fun piece _ => readSuffixed_passes passes _).bind fun _ _ _ => .refl _

end

theorem readWithin_passes {few many : Nat} (le : few ≤ many) (text : List Char) :
    Passes (fun _ => True) (readWithin few text) (readWithin many text) := by
  induction few generalizing many text with
  | zero => exact .none _ _
  | succ few ih =>
    obtain ⟨many, rfl⟩ : ∃ more, many = more + 1 := ⟨many - 1, by omega⟩
    exact readType_passes (ih (Nat.le_of_succ_le_succ le)) text

/-- Whatever is read at some depth is read so at every greater depth. -/
theorem readWithin_mono {few many : Nat} (le : few ≤ many) {text : List Char} {type : Reading}
    (read : readWithin few text = some type) : readWithin many text = some type :=
  (readWithin_passes le text type read).1

/-- A text has at most one reading. -/
theorem Reads.unique {text : String} {type type' : Reading} (reads : Reads text type)
    (reads' : Reads text type') : type = type' := by
  obtain ⟨depth, read⟩ := reads
  obtain ⟨depth', read'⟩ := reads'
  have deeper := readWithin_mono (Nat.le_max_left depth depth') read
  have deeper' := readWithin_mono (Nat.le_max_right depth depth') read'
  exact Option.some.inj (deeper.symm.trans deeper')

/-! ## Pieces that are read -/

section

variable {deeper : List Char → Option Reading} {a b text : List Char} {types types' : List Reading}

theorem readPiece_blank_left (piece : List Char) :
    readPiece deeper (' ' :: piece) = readPiece deeper piece := by
  rw [readPiece, List.dropWhile_cons_of_pos (by decide), readPiece]

theorem readPiece_blank_right (piece : List Char) :
    readPiece deeper (piece ++ [' ']) = readPiece deeper piece := by
  rw [readPiece, readPiece, List.dropWhile_append]
  split
  · next empty =>
    rw [List.isEmpty_iff.mp empty]
    rfl
  · rw [List.reverse_append]
    rfl

theorem readPiece_suffix (piece : List Char) :
    readPiece deeper (piece ++ ['[', ']']) = (readPiece deeper piece).map .array := by
  rw [readPiece, readPiece, List.dropWhile_append]
  split
  · next empty =>
    rw [List.isEmpty_iff.mp empty]
    rfl
  · rw [List.reverse_append]
    rfl

theorem readPiece_of_ends {first last : Char} (isFirst : isBlank first = false)
    (isLast : isBlank last = false) (noSuffix : last ≠ ']') (middle : List Char) :
    readPiece deeper (first :: middle ++ [last]) =
      readPrimary deeper (first :: middle ++ [last]) := by
  have reversed : (first :: middle ++ [last]).reverse = last :: (first :: middle).reverse := by simp
  rw [readPiece, List.cons_append, List.dropWhile_cons_of_neg (by simp [isFirst]),
    ← List.cons_append, reversed, readSuffixed, if_neg (by simp [isLast]), ← reversed,
    List.reverse_reverse]
  rintro rest rfl
  exact (noSuffix rfl).elim

theorem mapM_eq_some_iff {α β : Type} {f : α → Option β} {items : List α} {results : List β} :
    items.mapM f = some results ↔ items.map f = results.map some := by
  induction items generalizing results with
  | nil => cases results <;> simp
  | cons first rest ih =>
    simp only [List.mapM_cons, Option.bind_eq_bind, Option.bind_eq_some_iff, Option.pure_def,
      Option.some.injEq, List.map_cons]
    constructor
    · rintro ⟨result, isFirst, later, isRest, rfl⟩
      rw [isFirst, ih.mp isRest, List.map_cons]
    · intro same
      cases results with
      | nil => simp at same
      | cons result later =>
        obtain ⟨isFirst, isRest⟩ := List.cons.inj same
        exact ⟨result, isFirst, later, ih.mpr isRest, rfl⟩

/-- A text that is no function type is read piece by piece. -/
structure Apart (deeper : List Char → Option Reading) (text : List Char) (types : List Reading) :
    Prop where
  closed : Closed text
  unsigned : signature? text = none
  tight : isLoose Scan.start text = false
  read : (pieces Scan.start text).map (readPiece deeper) = types.map some

theorem readType_eq_some_iff {type : Reading} : readType deeper text = some type ↔
    (∃ parameters returned inner, Closed text ∧ signature? text = some (parameters, returned) ∧
      deeper returned = some inner ∧ type = .function parameters inner) ∨
    ∃ types, Apart deeper text types ∧ Reading.join types = some type := by
  unfold readType
  by_cases closed : Closed text
  · rw [if_pos closed]
    cases found : signature? text with
    | some parts =>
      obtain ⟨parameters, returned⟩ := parts
      constructor
      · intro read
        obtain ⟨inner, isInner, rfl⟩ := Option.map_eq_some_iff.mp read
        exact .inl ⟨parameters, returned, inner, closed, rfl, isInner, rfl⟩
      · rintro (⟨parameters', returned', inner, _, same, read, rfl⟩ | ⟨types, apart, _⟩)
        · obtain ⟨rfl, rfl⟩ := Prod.mk.inj (Option.some.inj same)
          exact Option.map_eq_some_iff.mpr ⟨inner, read, rfl⟩
        · simp [apart.unsigned] at found
    | none =>
      dsimp only
      constructor
      · intro read
        split at read
        · simp at read
        · next tight =>
          obtain ⟨types, read, joined⟩ := Option.bind_eq_some_iff.mp read
          have isTight : isLoose Scan.start text = false := by simpa using tight
          exact .inr ⟨types, ⟨closed, found, isTight, mapM_eq_some_iff.mp read⟩, joined⟩
      · rintro (⟨_, _, _, _, same, _⟩ | ⟨types, apart, joined⟩)
        · simp at same
        · rw [if_neg (by simp [apart.tight]), mapM_eq_some_iff.mpr apart.read, Option.bind_some,
            joined]
  · rw [if_neg closed]
    constructor
    · simp
    · rintro (⟨_, _, _, closed', _⟩ | ⟨_, apart, _⟩)
      · exact (closed closed').elim
      · exact (closed apart.closed).elim

theorem readType_eq_readPiece (closed : Closed text) (unsigned : signature? text = none)
    (tight : isLoose Scan.start text = false) (whole : pieces Scan.start text = [text]) :
    readType deeper text = readPiece deeper text := by
  unfold readType
  rw [if_pos closed, unsigned, whole]
  dsimp only
  rw [if_neg (by simp [tight])]
  cases read : readPiece deeper text <;> simp [read, Reading.join]

/-- A text in brackets is not cut, with whatever stands around the brackets. -/
theorem readType_within (closed : Closed text) (d : Char) {front back : List Char}
    (opens : Scan.start.run front = some ⟨[d], false⟩)
    (closes : Scan.run ⟨[d], false⟩ back = some Scan.start)
    (frontWhole : isLoose Scan.start front = false ∧ pieces Scan.start front = [front])
    (backWhole : isLoose ⟨[d], false⟩ back = false ∧ pieces ⟨[d], false⟩ back = [back])
    (unsigned : signature? (front ++ text ++ back) = none) :
    readType deeper (front ++ text ++ back) = readPiece deeper (front ++ text ++ back) :=
  readType_eq_readPiece (closed.within d opens closes) unsigned
    (isLoose_within closed d opens frontWhole.1 backWhole.1)
    (pieces_within closed d opens frontWhole.2 backWhole.2)

/-- A blank before a text is not read. -/
theorem readType_blank (text : List Char) :
    readType deeper (' ' :: text) = readType deeper text := by
  have sameSignature : signature? (' ' :: text) = signature? text := by
    rw [signature?, List.dropWhile_cons_of_pos (by decide), signature?]
  have sameLoose : isLoose Scan.start (' ' :: text) = isLoose Scan.start text := rfl
  have samePieces : (pieces Scan.start (' ' :: text)).mapM (readPiece deeper) =
      (pieces Scan.start text).mapM (readPiece deeper) := by
    have isPieces : pieces Scan.start (' ' :: text) =
        (pieces Scan.start text).modifyHead (' ' :: ·) := rfl
    rw [isPieces]
    cases pieces Scan.start text with
    | nil => rfl
    | cons piece later => simp [readPiece_blank_left]
  unfold readType
  rw [sameSignature, sameLoose, samePieces]
  rfl

theorem Apart.ne_nil (apart : Apart deeper text types) : types ≠ [] := by
  rintro rfl
  obtain ⟨front, last, isPieces, _⟩ := pieces_append apart.closed
  have read := apart.read
  simp [isPieces] at read

/-- With a bar between them, two texts are read one after the other. -/
theorem Apart.bar (left : Apart deeper a types) (right : Apart deeper b types') :
    Apart deeper (a ++ " | ".toList ++ b) (types ++ types') := by
  have barClosed : Closed " | ".toList := by decide
  refine ⟨(left.closed.append barClosed).append right.closed, ?_, ?_, ?_⟩
  · rw [List.append_assoc]
    exact signature?_bar left.closed left.unsigned b
  · rw [isLoose_append (left.closed.append barClosed), isLoose_append left.closed, left.tight,
      right.tight]
    rfl
  · obtain ⟨front, last, isPieces, appended⟩ := pieces_append left.closed
    have isBar : pieces Scan.start (" | ".toList ++ b) =
        [' '] :: (pieces Scan.start b).modifyHead (' ' :: ·) := rfl
    have isRight : ((pieces Scan.start b).modifyHead (' ' :: ·)).map (readPiece deeper) =
        (pieces Scan.start b).map (readPiece deeper) := by
      cases pieces Scan.start b with
      | nil => rfl
      | cons piece later => simp [readPiece_blank_left]
    have isLeft := left.read
    rw [isPieces, List.map_append, List.map_singleton] at isLeft
    rw [List.append_assoc, appended, isBar, List.modifyHead_cons, List.map_append, List.map_cons,
      readPiece_blank_right, isRight, right.read, List.map_append, ← isLeft]
    simp

end

end Inlay.TypeText
