import Inlay.Proofs.Mention

/-!
Types read from the descriptions of bindings and of declarations.

The type of a binding is always read, and so is what a function returns that a binding holds. What
a declaration returns is read unless the name is mentioned once more, in the parameters or in the
returned type, and the first such mention is that of a function. Then it is what that function
returns that is read.
-/

namespace Inlay.TypeServer

open Inlay.Text

/-! ## Texts that are not blank -/

def NonBlank (text : List Char) : Prop := ∃ c ∈ text, isBlank c = false

instance (text : List Char) : Decidable (NonBlank text) :=
  decidable_of_iff (text.any (!isBlank ·) = true) (by simp [NonBlank])

section

variable {text kept parameters returned : List Char}

theorem stripped?_eq_some_iff : stripped? text = some kept ↔ strip text = kept ∧ kept ≠ [] := by
  unfold stripped?
  split
  · next nothing => simp [nothing, eq_comm]
  · next something =>
    rw [Option.some_inj, iff_self_and]
    rintro rfl
    exact something

theorem NonBlank.stripped?_eq (nonBlank : NonBlank text) : stripped? text = some (strip text) := by
  obtain ⟨c, member, kept⟩ := nonBlank
  exact stripped?_eq_some_iff.mpr ⟨rfl, strip_ne_nil member kept⟩

theorem NonBlank.dropEndWhile_ne_nil (nonBlank : NonBlank text) :
    dropEndWhile isBlank text ≠ [] := by
  obtain ⟨c, member, kept⟩ := nonBlank
  exact Text.dropEndWhile_ne_nil member kept

theorem stripped?_dropEndWhile (text : List Char) :
    stripped? (dropEndWhile isBlank text) = stripped? text := by
  rw [stripped?, strip_dropEndWhile, stripped?]

/-- A function type begins with a parenthesis, so only its end is stripped. -/
theorem NonBlank.strip_functionType (nonBlank : NonBlank returned) (parameters : List Char) :
    strip (functionType parameters returned) =
      functionType parameters (dropEndWhile isBlank returned) := by
  have whole : functionType parameters returned =
      ('(' :: (parameters ++ ')' :: arrow)) ++ returned := by
    simp [functionType]
  rw [strip, functionType, List.dropWhile_cons_of_neg (by decide), ← functionType, whole,
    dropEndWhile_append_of_ne_nil _ nonBlank.dropEndWhile_ne_nil]
  simp [functionType]

/-- A stripped function type returns something. -/
theorem nonBlank_of_strip_eq (same : strip text = functionType parameters returned) :
    NonBlank returned := by
  by_contra blank
  have ends : ∀ c ∈ ' ' :: returned, isBlank c = true := by
    intro c member
    rcases List.mem_cons.mp member with rfl | member
    · rfl
    · by_contra kept
      exact blank ⟨c, member, by simpa using kept⟩
  have whole : functionType parameters returned =
      ('(' :: (parameters ++ [')', ' ', '=', '>'])) ++ ' ' :: returned := by
    simp [functionType, arrow]
  have shorter := length_strip_le ('(' :: (parameters ++ [')', ' ', '=', '>']))
  rw [← strip_append ends, ← whole, ← same, strip_strip, same, whole,
    List.length_append, @List.length_cons _ ' '] at shorter
  omega

end

/-! ## Bindings -/

/-- What stands in front of the name of a binding. -/
inductive Introducer
  | constant
  | blockScoped
  | hoisted
  | parameter
  | property (owner : Identifier)

namespace Introducer

def word : Introducer → List Char
  | constant => "const".toList
  | blockScoped => "let".toList
  | hoisted => "var".toList
  | parameter => "(parameter)".toList
  | property owner => "(property) ".toList ++ owner.text

/-- What stands between the word and the name. -/
def separator : Introducer → Char
  | property _ => '.'
  | _ => ' '

theorem separates (introducer : Introducer) :
    (isBlank introducer.separator || introducer.separator == '.') = true := by
  cases introducer <;> rfl

theorem stops (introducer : Introducer) : Stops introducer.separator := by
  have each : Stops '.' ∧ Stops ' ' := by decide
  cases introducer with
  | property => exact each.1
  | constant | blockScoped | hoisted | parameter => exact each.2

end Introducer

theorem Introducer.unmarked (introducer : Introducer) : ':' ∉ introducer.word := by
  cases introducer with
  | property owner =>
    change ':' ∉ "(property) ".toList ++ owner.text
    rw [List.mem_append, not_or]
    exact ⟨by decide, owner.not_mem (by decide)⟩
  | constant | blockScoped | hoisted | parameter => decide

/-- A binding as it is described. -/
structure Binding where
  introducer : Introducer
  name : Identifier
  optional : Bool
  type : List Char
  nonBlank : NonBlank type

def Binding.display (binding : Binding) : List Char :=
  binding.introducer.word ++
    binding.introducer.separator :: (binding.name.typed binding.optional ++ binding.type)

section

variable {name : Identifier} {display text type : List Char}

theorem typeOf?_of_afterName? (found : afterName? name.text display = some text) :
    typeOf? display name.text = stripped? text := by
  have named : name.text.isEmpty = false := by simp [name.nonempty]
  simp [typeOf?, named, found]

theorem returnTypeOf?_of_some
    (found : (typeOf? display name.text).bind behindArrow? = some text) :
    returnTypeOf? display name.text = stripped? text := by
  have named : name.text.isEmpty = false := by simp [name.nonempty]
  simp [returnTypeOf?, named, found]

theorem returnTypeOf?_of_none (missing : (typeOf? display name.text).bind behindArrow? = none) :
    returnTypeOf? display name.text =
      (behindParameters? (withoutKind display)).bind stripped? := by
  have named : name.text.isEmpty = false := by simp [name.nonempty]
  simp [returnTypeOf?, named, missing]

end

theorem Binding.typeOf?_display (binding : Binding) :
    typeOf? binding.display binding.name.text = some (strip binding.type) := by
  rw [← binding.nonBlank.stripped?_eq]
  apply typeOf?_of_afterName?
  rw [display, afterName?_append binding.introducer.stops binding.introducer.unmarked,
    afterLaterName?, if_pos binding.introducer.separates,
    afterColon?_eq_some_iff.mpr ⟨binding.optional, rfl⟩]

/-- The type of a binding is read, whatever it mentions. If it is that of a function, so is what the
function returns. -/
theorem bindings_are_read (binding : Binding) :
    typeOf? binding.display binding.name.text = some (strip binding.type) ∧
      ∀ parameters returned, Paired parameters → NonBlank returned →
        binding.type = functionType parameters returned →
        returnTypeOf? binding.display binding.name.text = some (strip returned) := by
  refine ⟨binding.typeOf?_display, ?_⟩
  intro parameters returned paired nonBlank isFunction
  have behind : behindArrow? (strip binding.type) = some (dropEndWhile isBlank returned) := by
    rw [isFunction, nonBlank.strip_functionType]
    exact behindArrow?_eq_some_iff.mpr ⟨parameters, paired, rfl⟩
  rw [← nonBlank.stripped?_eq, ← stripped?_dropEndWhile]
  apply returnTypeOf?_of_some
  rw [binding.typeOf?_display, Option.bind_some, behind]

/-- A method that need not be given and whose parameter has its name. -/
def optionalMethod : Binding where
  introducer := .property ⟨"Box".toList, by decide, by decide⟩
  name := ⟨"map".toList, by decide, by decide⟩
  optional := true
  type := "(a: number, map: (x: number) => string) => boolean ".toList
  nonBlank := by decide

theorem optional_method_is_read :
    optionalMethod.display =
        "(property) Box.map?: (a: number, map: (x: number) => string) => boolean ".toList ∧
      typeOf? optionalMethod.display "map".toList =
        some "(a: number, map: (x: number) => string) => boolean".toList ∧
      returnTypeOf? optionalMethod.display "map".toList = some "boolean".toList := by
  have isRead := bindings_are_read optionalMethod
  refine ⟨by decide, isRead.1.trans (by decide), ?_⟩
  refine (isRead.2 "a: number, map: (x: number) => string".toList "boolean ".toList ?_ ?_ ?_).trans ?_
  all_goals decide

/-! ## Declarations -/

/-- The kind of what is described, as it is told in parentheses. -/
structure Kind where
  text : List Char
  closed : ')' ∉ text
  unmarked : ':' ∉ text

def kindText : Option Kind → List Char
  | none => []
  | some kind => '(' :: (kind.text ++ [')', ' '])

/-- A declaration of a function or a method as it is described. -/
structure Declaration where
  kind : Option Kind
  isFunction : Bool
  container : List Identifier
  name : Identifier
  parameters : List Char
  paired : Paired parameters
  result : List Char
  nonBlank : NonBlank result

namespace Declaration

/-- What comes before the parameters. -/
def head (declaration : Declaration) : List Char :=
  (if declaration.isFunction then "function ".toList else []) ++
    (declaration.container.flatMap (·.text ++ ['.']) ++ declaration.name.text)

/-- What follows the parenthesis that opens the parameters. -/
def signature (declaration : Declaration) : List Char :=
  declaration.parameters ++ ')' :: ':' :: ' ' :: declaration.result

def display (declaration : Declaration) : List Char :=
  kindText declaration.kind ++ (declaration.head ++ '(' :: declaration.signature)

end Declaration

theorem Identifier.exists_cons (name : Identifier) :
    ∃ c rest, name.text = c :: rest ∧ isBlank c = false := by
  obtain ⟨c, rest, isName⟩ := List.exists_cons_of_ne_nil name.nonempty
  have part := name.isNamePart_of_mem (isName ▸ List.mem_cons_self)
  simp only [isNamePart, Bool.not_eq_true', Bool.or_eq_false_iff] at part
  exact ⟨c, rest, isName, part.1⟩

theorem kindText_unmarked (kind : Option Kind) : ':' ∉ kindText kind := by
  cases kind with
  | none => exact List.not_mem_nil
  | some kind => simp [kindText, kind.unmarked]

/-- Only the kind is taken off. -/
theorem withoutKind_append (kind : Option Kind) {c : Char} {rest : List Char}
    (kept : isBlank c = false) (opens : c ≠ '(') :
    withoutKind (kindText kind ++ c :: rest) = c :: rest := by
  cases kind with
  | none =>
    rw [kindText, List.nil_append, withoutKind]
    simp [opens]
  | some kind =>
    have inside : ∀ d ∈ kind.text, (d != ')') = true := by
      intro d member
      simp only [bne_iff_ne, ne_eq]
      rintro rfl
      exact kind.closed member
    have taken : (kind.text ++ ([')', ' '] ++ c :: rest)).dropWhile (· != ')') =
        ')' :: ' ' :: c :: rest := by
      rw [List.dropWhile_append_of_pos inside]
      rfl
    have blanks : (' ' :: c :: rest).dropWhile isBlank = c :: rest := by
      rw [List.dropWhile_cons_of_pos (by decide), List.dropWhile_cons_of_neg (by simp [kept])]
    rw [kindText, List.cons_append, List.append_assoc, withoutKind]
    simp only [taken, blanks]

theorem behindParameters?_append {head parameters : List Char} (rest : List Char)
    (unopened : '(' ∉ head) (paired : Paired parameters) :
    behindParameters? (head ++ '(' :: (parameters ++ ')' :: rest)) = after? [':', ' '] rest := by
  have missing : head.findIdx? (· == '(') = none := by
    rw [List.findIdx?_eq_none_iff]
    intro c member
    simp only [beq_eq_false_iff_ne, ne_eq]
    rintro rfl
    exact unopened member
  have first : (head ++ '(' :: (parameters ++ ')' :: rest)).findIdx? (· == '(') =
      some head.length := by
    simp [List.findIdx?_append, missing, List.findIdx?_cons]
  have closed := matchingParen?_eq_some_iff.mpr
    ⟨parameters, rest, paired, rfl, @rfl _ (head.length + parameters.length + 1)⟩
  simp only [behindParameters?, first, closed, drop_closing]

theorem typeBehindColon?_append {head : List Char} (rest : List Char) (unmarked : ':' ∉ head) :
    typeBehindColon? (head ++ '(' :: rest) = none := by
  have cut : cutAt? [':', ' '] (head ++ '(' :: rest) =
      (cutAt? [':', ' '] rest).map fun found => (head ++ '(' :: found.1, found.2) := by
    induction head with
    | nil => simp [cutAt?, after?]
    | cons c head ih =>
      obtain ⟨other, later⟩ : ':' ≠ c ∧ ':' ∉ head := by simpa using unmarked
      rw [List.cons_append, cutAt?, ih later]
      simp only [after?, if_neg other, Option.map_map]
      rfl
  rw [typeBehindColon?, cut]
  cases cutAt? [':', ' '] rest <;> simp

namespace Declaration

variable (declaration : Declaration)

theorem not_mem_head {c : Char} (outside : isNamePart c = false) (other : c ∉ "function ".toList)
    (dot : c ≠ '.') : c ∉ declaration.head := by
  have word : c ∉ if declaration.isFunction then "function ".toList else [] := by
    split
    · exact other
    · exact List.not_mem_nil
  have container : c ∉ declaration.container.flatMap (·.text ++ ['.']) := by
    intro member
    obtain ⟨part, -, member⟩ := List.mem_flatMap.mp member
    rcases List.mem_append.mp member with isPart | isDot
    · exact part.not_mem outside isPart
    · exact dot (List.mem_singleton.mp isDot)
  simp only [head, List.mem_append, not_or]
  exact ⟨word, container, declaration.name.not_mem outside⟩

theorem unmarked_head : ':' ∉ declaration.head :=
  declaration.not_mem_head (by decide) (by decide) (by decide)

theorem unopened_head : '(' ∉ declaration.head :=
  declaration.not_mem_head (by decide) (by decide) (by decide)

theorem exists_head : ∃ c rest, declaration.head = c :: rest ∧ isBlank c = false := by
  unfold head
  cases declaration.isFunction with
  | true => exact ⟨'f', _, rfl, by decide⟩
  | false =>
    cases declaration.container with
    | nil =>
      obtain ⟨c, rest, isName, kept⟩ := declaration.name.exists_cons
      exact ⟨c, rest, by simp [isName], kept⟩
    | cons part parts =>
      obtain ⟨c, rest, isPart, kept⟩ := part.exists_cons
      exact ⟨c, _, by simp [isPart]; rfl, kept⟩

theorem withoutKind_display :
    withoutKind declaration.display = declaration.head ++ '(' :: declaration.signature := by
  obtain ⟨c, rest, isHead, kept⟩ := declaration.exists_head
  have opens : c ≠ '(' := by
    rintro rfl
    exact declaration.unopened_head (by simp [isHead])
  rw [display, isHead]
  exact withoutKind_append declaration.kind kept opens

/-- A mention of the name among parameters or in the returned type counts as its type. -/
theorem typeOf?_display :
    typeOf? declaration.display declaration.name.text =
      (afterLaterName? declaration.name.text declaration.signature).bind stripped? := by
  have unmarked : ':' ∉ kindText declaration.kind ++ declaration.head := by
    rw [List.mem_append, not_or]
    exact ⟨kindText_unmarked declaration.kind, declaration.unmarked_head⟩
  have found : afterName? declaration.name.text declaration.display =
      afterLaterName? declaration.name.text declaration.signature := by
    rw [display, ← List.append_assoc, afterName?_append (by decide) unmarked]
    rfl
  cases mention : afterLaterName? declaration.name.text declaration.signature with
  | some tail => exact typeOf?_of_afterName? (found.trans mention)
  | none =>
    have named : declaration.name.text.isEmpty = false := by simp [declaration.name.nonempty]
    simp only [typeOf?, named, found, mention, declaration.withoutKind_display]
    exact typeBehindColon?_append _ declaration.unmarked_head

theorem behindParameters?_display :
    (behindParameters? (withoutKind declaration.display)).bind stripped? =
      some (strip declaration.result) := by
  have behind : after? [':', ' '] (':' :: ' ' :: declaration.result) = some declaration.result := by
    exact after?_eq_some_iff.mpr rfl
  rw [declaration.withoutKind_display, signature,
    behindParameters?_append _ declaration.unopened_head declaration.paired, behind,
    Option.bind_some, declaration.nonBlank.stripped?_eq]

/-- The first mention of the name behind its own is followed by the type of a function that returns
`returned`. -/
def Misleads (returned : List Char) : Prop :=
  ∃ tail parameters, FirstMentioned declaration.name declaration.signature tail ∧
    Paired parameters ∧ strip tail = functionType parameters returned

variable {declaration} {returned : List Char}

theorem misleads_iff :
    declaration.Misleads returned ↔
      (typeOf? declaration.display declaration.name.text).bind behindArrow? = some returned := by
  rw [typeOf?_display]
  simp only [Option.bind_eq_some_iff, stripped?_eq_some_iff, afterLaterName?_eq_some_iff,
    behindArrow?_eq_some_iff]
  constructor
  · rintro ⟨tail, parameters, mentioned, paired, same⟩
    exact ⟨_, ⟨tail, mentioned, same, by simp [functionType]⟩, parameters, paired, rfl⟩
  · rintro ⟨_, ⟨tail, mentioned, rfl, -⟩, parameters, paired, same⟩
    exact ⟨tail, parameters, mentioned, paired, same⟩

theorem Misleads.returnTypeOf?_eq (misleads : declaration.Misleads returned) :
    returnTypeOf? declaration.display declaration.name.text = some (strip returned) := by
  rw [returnTypeOf?_of_some (misleads_iff.mp misleads)]
  obtain ⟨tail, parameters, -, -, same⟩ := misleads
  exact (nonBlank_of_strip_eq same).stripped?_eq

/-- A group of brackets behind the parenthesis that opens the parameters begins in what is returned
or among the parameters. -/
theorem group_begins {front blanks later : List Char} (blank : ∀ c ∈ blanks, isBlank c = true)
    (whole : declaration.signature = front ++ (blanks ++ '(' :: later)) :
    (strip (blanks ++ '(' :: later)).length ≤ (strip declaration.result).length ∨
      ∃ first rest, declaration.parameters = first ++ '(' :: rest ∧
        later = rest ++ ')' :: ':' :: ' ' :: declaration.result := by
  rw [signature, ← List.append_assoc] at whole
  obtain ⟨middle, -, ends⟩ | ⟨middle, same, ends⟩ := List.append_eq_append_iff.mp whole
  · left
    obtain ⟨first, isResult⟩ : ∃ first, declaration.result = first ++ '(' :: later := by
      rcases middle with _ | ⟨_, _ | ⟨_, _ | ⟨_, first⟩⟩⟩ <;> simp at ends
      exact ⟨first, ends.2.2.2⟩
    rw [strip_blanks_append blank, isResult]
    exact length_strip_le_append first _
  · right
    obtain ⟨-, same⟩ | ⟨rest, rfl, isLater⟩ := List.cons_eq_append_iff.mp ends
    · cases same
    · exact ⟨_, rest, same, isLater⟩

/-- What is read by mistake is not what the declaration returns: it is only a part of it, or has a
part of the parameters too. -/
theorem Misleads.strip_ne (misleads : declaration.Misleads returned) :
    strip returned ≠ strip declaration.result := by
  obtain ⟨tail, parameters, ⟨front, ⟨separator, optional, -, whole⟩, -⟩, paired, same⟩ := misleads
  obtain ⟨blanks, back, blank, blank', isTail⟩ := exists_append_strip_append tail
  have opens : tail = blanks ++ '(' :: (parameters ++ ')' :: (arrow ++ (returned ++ back))) := by
    rw [same] at isTail
    simpa [functionType] using isTail
  have cut : declaration.signature = (front ++ separator :: declaration.name.typed optional) ++
      (blanks ++ '(' :: (parameters ++ ')' :: (arrow ++ (returned ++ back)))) := by
    rw [whole, opens]
    simp
  intro equal
  have lengths := congrArg List.length equal
  rcases group_begins blank cut with short | ⟨first, rest, among, later⟩
  · have within := length_strip_le returned
    have wider := congrArg List.length same
    rw [← opens] at short
    simp only [functionType, List.length_cons, List.length_append] at wider
    omega
  · obtain ⟨between, behind⟩ := declaration.paired.exists_behind among paired later.symm
    have longer := @length_strip_lt_append (between ++ [')', ':', ' ']) ')' (by simp) (by decide)
      declaration.result
    rw [List.append_assoc] at longer
    rw [← strip_append blank', behind] at lengths
    exact absurd lengths (Nat.ne_of_gt longer)

end Declaration

/-- What a declaration returns is read, unless the first mention of its name among the parameters or
in the returned type is that of a function. Then what that function returns is read instead. -/
theorem declared_result_read_iff (declaration : Declaration) :
    (returnTypeOf? declaration.display declaration.name.text = some (strip declaration.result) ↔
      ¬ ∃ returned, declaration.Misleads returned) ∧
    ∀ returned, declaration.Misleads returned →
      returnTypeOf? declaration.display declaration.name.text = some (strip returned) := by
  refine ⟨⟨?_, ?_⟩, fun returned misleads => misleads.returnTypeOf?_eq⟩
  · rintro isRead ⟨returned, misleads⟩
    exact misleads.strip_ne (Option.some.inj (misleads.returnTypeOf?_eq.symm.trans isRead))
  · intro trusted
    rw [returnTypeOf?_of_none, declaration.behindParameters?_display]
    rw [Option.eq_none_iff_forall_ne_some]
    exact fun returned isRead => trusted ⟨returned, Declaration.misleads_iff.mpr isRead⟩

/-- A method whose name is mentioned with a type that is no function's. -/
def namedNumber : Declaration where
  kind := some ⟨"method".toList, by decide, by decide⟩
  isFunction := false
  container := [⟨"Foo".toList, by decide, by decide⟩]
  name := ⟨"run".toList, by decide, by decide⟩
  parameters := "a: string, run: (number), b: (run: number) => void".toList
  paired := by decide
  result := " Promise<void>".toList
  nonBlank := by decide

/-- A function with a callback of its own name. -/
def namedCallback : Declaration where
  kind := none
  isFunction := true
  container := []
  name := ⟨"f".toList, by decide, by decide⟩
  parameters := "a: number, f: (x: number) => string".toList
  paired := by decide
  result := "boolean".toList
  nonBlank := by decide

/-- A function that returns an object with a method of its own name. -/
def namedMember : Declaration where
  kind := none
  isFunction := true
  container := []
  name := ⟨"f".toList, by decide, by decide⟩
  parameters := []
  paired := by decide
  result := "\x7b f: (x: number) => string \x7d".toList
  nonBlank := by decide

theorem number_read_and_callback_misleads :
    returnTypeOf? namedNumber.display "run".toList = some "Promise<void>".toList ∧
      namedCallback.Misleads "string): boolean".toList ∧
      returnTypeOf? namedCallback.display "f".toList = some "string): boolean".toList := by
  have trusted : ¬ ∃ returned, namedNumber.Misleads returned := by
    rintro ⟨returned, misleads⟩
    have missing : (typeOf? namedNumber.display "run".toList).bind behindArrow? = none := by decide
    cases missing.symm.trans (Declaration.misleads_iff.mp misleads)
  have misleads : namedCallback.Misleads "string): boolean".toList :=
    Declaration.misleads_iff.mpr (by decide)
  refine ⟨((declared_result_read_iff namedNumber).1.mpr trusted).trans (by decide), misleads, ?_⟩
  exact ((declared_result_read_iff namedCallback).2 _ misleads).trans (by decide)

/-- For neither of the two is what the declaration returns read. -/
theorem function_of_same_name_misread :
    namedCallback.display = "function f(a: number, f: (x: number) => string): boolean".toList ∧
      strip namedCallback.result = "boolean".toList ∧
      returnTypeOf? namedCallback.display "f".toList = some "string): boolean".toList ∧
      namedMember.display = "function f(): \x7b f: (x: number) => string \x7d".toList ∧
      strip namedMember.result = "\x7b f: (x: number) => string \x7d".toList ∧
      returnTypeOf? namedMember.display "f".toList = some "string \x7d".toList := by
  decide

end Inlay.TypeServer
