import Inlay.Proofs.Navigation
import Inlay.Proofs.Shadowing

/-!
What is told from answers, and what it inherits from them.

Nearly every question is answered from the answers to smaller questions, and is left open if one of
these is. So whatever two sets of answers have in common is passed on to what is told from them:
that the second tells all that the first tells, and that what is told has some property, as long as
the property passes from pieces of the source and from smaller texts to texts made of them. Each
question is followed once, for both at the same time.

There are two exceptions, in which something else stands in for an answer that is missing: a
function type shows `any` for a parameter whose type is not told, and the default of a property
counts if the property's own type is not told. So the second answers must be steady: nothing that
they tell is replaced in the first.
-/

namespace Inlay.Infer

open Inlay.Tree
open Inlay.Tree.Cursor (InTree)

/-- What the first tells has the property, and the second tells it too. -/
def Passes {α : Type} (holds : α → Prop) (few many : Option α) : Prop :=
  ∀ answer, few = some answer → many = some answer ∧ holds answer

section

variable {α β : Type} {holds : α → Prop} {holds' : β → Prop} {few many : Option α}

theorem Passes.none (holds : α → Prop) (many : Option α) : Passes holds none many := by
  simp [Passes]

theorem Passes.self {answer : Option α} (each : ∀ x, answer = some x → holds x) :
    Passes holds answer answer :=
  fun x told => ⟨told, each x told⟩

theorem Passes.some {answer : α} (held : holds answer) : Passes holds (some answer) (some answer) :=
  .self fun _ told => Option.some.inj told ▸ held

theorem Passes.refl (answer : Option α) : Passes (fun _ => True) answer answer :=
  .self fun _ _ => trivial

theorem Passes.bind (passes : Passes holds few many) {f g : α → Option β}
    (each : ∀ x, few = .some x → holds x → Passes holds' (f x) (g x)) :
    Passes holds' (few.bind f) (many.bind g) := by
  intro answer told
  obtain ⟨x, found, told⟩ := Option.bind_eq_some_iff.mp told
  obtain ⟨foundToo, held⟩ := passes x found
  obtain ⟨toldToo, held⟩ := each x found held answer told
  exact ⟨Option.bind_eq_some_iff.mpr ⟨x, foundToo, toldToo⟩, held⟩

theorem Passes.map (passes : Passes holds few many) {f : α → β}
    (each : ∀ x, holds x → holds' (f x)) : Passes holds' (few.map f) (many.map f) := by
  intro answer told
  obtain ⟨x, found, rfl⟩ := Option.map_eq_some_iff.mp told
  obtain ⟨foundToo, held⟩ := passes x found
  exact ⟨Option.map_eq_some_iff.mpr ⟨x, foundToo, rfl⟩, each x held⟩

theorem Passes.nonempty {holds : String → Prop} {few many : Option String}
    (passes : Passes holds few many) : Passes holds (nonempty few) (nonempty many) := by
  intro answer told
  obtain ⟨found, filled⟩ := Option.filter_eq_some_iff.mp told
  obtain ⟨foundToo, held⟩ := passes answer found
  exact ⟨Option.filter_eq_some_iff.mpr ⟨foundToo, filled⟩, held⟩

theorem Passes.ite {condition : Prop} [Decidable condition] {few' many' : Option α}
    (yes : Passes holds few many) (no : Passes holds few' many') :
    Passes holds (if condition then few else few') (if condition then many else many') := by
  split
  · exact yes
  · exact no

/-- If all of a list are told by the first, all are told by the second. -/
theorem Passes.mapM (holds : α → Prop) {items : List β} {f g : β → Option α}
    (each : ∀ x ∈ items, Passes holds (f x) (g x)) :
    Passes (fun results => ∀ result ∈ results, holds result) (items.mapM f) (items.mapM g) := by
  induction items with
  | nil => exact .some (by simp)
  | cons first rest ih =>
    simp only [List.mapM_cons, Option.pure_def, Option.bind_eq_bind]
    refine (each first (.head _)).bind fun result _ held => ?_
    refine (ih fun y isRest => each y (.tail _ isRest)).bind fun results _ heldRest => ?_
    exact .some (List.forall_mem_cons.mpr ⟨held, heldRest⟩)

end

/-- In a tree, what the first answers tell has the property, and the second tell it too. -/
structure PassedOn (root : Node) (holds : String → Prop) (few many : Answers) : Prop where
  typeOf : ∀ {cursor}, InTree root cursor → Passes holds (few.typeOf cursor) (many.typeOf cursor)
  expression : ∀ {cursor}, InTree root cursor →
    Passes holds (few.expression cursor) (many.expression cursor)
  function : ∀ {cursor}, InTree root cursor →
    Passes holds (few.function cursor) (many.function cursor)
  returned : ∀ {cursor}, InTree root cursor →
    Passes holds (few.returned cursor) (many.returned cursor)
  reference : ∀ {cursor}, InTree root cursor →
    Passes holds (few.reference cursor) (many.reference cursor)

/-! ## What texts are made of -/

/-- The pieces of the source at a node that stand in texts for types: annotations, names of classes
and constructors, type arguments and asserted types. -/
def typeSlices (source : Source) (cursor : Cursor) : List String :=
  let fields := fun names => (names.filterMap cursor.field?).map source.textOf
  ["type", "return_type"].filterMap (writtenType? source cursor) ++
    (if isClass cursor then fields ["name"] else []) ++
    (if cursor.kind == "new_expression" then fields ["constructor", "type_arguments"] else []) ++
    (match cursor.kind == "as_expression", cursor.members with
      | true, [_, type] => [source.textOf type]
      | _, _ => []) ++
    (if cursor.kind == "type_assertion" then (assertedType source cursor).toList else [])

/-- The pieces of the source at a node that stand in texts for parameters and keys. -/
def labelSlices (source : Source) (cursor : Cursor) : List String :=
  let key? := (cursor.field? "key").filter (·.kind != "computed_property_name")
  cursor.parameters.map (source.textOf ·.binding) ++
    (if cursor.kind == "pair" then (key?.map (keyName source)).toList else []) ++
    (if cursor.kind == "shorthand_property_identifier" then [source.textOf cursor] else []) ++
    (if cursor.kind == "method_definition" then ((cursor.field? "name").map source.textOf).toList
      else [])

/-- The texts that are told as they are. -/
def fixedTypes : List String :=
  ["any", "any[]", "void", ""] ++ literalTypes.map Prod.snd ++ unaryTypes.map Prod.snd

/-- A property passes from fixed texts, pieces of the source and smaller texts to the texts that are
made of them. -/
structure Hereditary (source : Source) (holds : String → Prop) : Prop where
  fixed : ∀ type ∈ fixedTypes, holds type
  slice : ∀ {cursor}, InTree source.root cursor → ∀ type ∈ typeSlices source cursor, holds type
  append : ∀ {front back}, holds front → holds back → holds (front ++ back)
  typeofName : ∀ {name}, holds name → holds (TypeText.typeofName name)
  promise : ∀ {type}, holds type → holds (TypeText.promise type)
  array : ∀ {element}, holds element → holds (TypeText.array element)
  union : ∀ {types}, (∀ type ∈ types, holds type) → holds (TypeText.union types)
  object : ∀ {members}, (∀ member ∈ members, holds member) → holds (TypeText.object members)
  member : ∀ {cursor}, InTree source.root cursor → ∀ label ∈ labelSlices source cursor,
    ∀ {type}, holds type → holds (TypeText.member label type)
  parameter : ∀ {cursor}, InTree source.root cursor → ∀ label ∈ labelSlices source cursor,
    ∀ isOptional {type}, holds type → holds (TypeText.parameter label isOptional type)
  function : ∀ {parameters returned}, (∀ parameter ∈ parameters, holds parameter) →
    holds returned → holds (TypeText.function parameters returned)

theorem hereditary_true (source : Source) : Hereditary source fun _ => True := by
  constructor <;> intros <;> trivial

section

variable {source : Source} {holds : String → Prop} {cursor target : Cursor}

theorem Hereditary.written (hereditary : Hereditary source holds)
    (inTree : InTree source.root cursor) {field : String}
    (isField : field = "type" ∨ field = "return_type") {type : String}
    (written : writtenType? source cursor field = some type) : holds type := by
  refine hereditary.slice inTree type ?_
  have isSlice : type ∈ ["type", "return_type"].filterMap (writtenType? source cursor) :=
    List.mem_filterMap.mpr ⟨field, by simpa using isField, written⟩
  simp [typeSlices, isSlice]

theorem Hereditary.className (hereditary : Hereditary source holds)
    (inTree : InTree source.root cursor) (isClass : isClass cursor = true)
    (isName : cursor.field? "name" = some target) : holds (source.textOf target) :=
  hereditary.slice inTree _ (by simp [typeSlices, isClass, isName])

theorem Hereditary.lookup (hereditary : Hereditary source holds) {table : List (String × String)}
    (fixed : ∀ entry ∈ table, entry.2 ∈ fixedTypes) {key type : String}
    (found : table.lookup key = some type) : holds type := by
  obtain ⟨before, after, rfl, _⟩ := List.lookup_eq_some_iff.mp found
  exact hereditary.fixed type (fixed (key, type) (by simp))

end

/-- A class that a name refers to has this name. -/
theorem className_of_resolve? {source : Source} {reference declaration : Cursor}
    (found : resolve? source reference = some declaration) (isClass' : isClass declaration = true) :
    ∃ name, declaration.field? "name" = some name ∧
      source.textOf name = source.textOf reference := by
  obtain ⟨scope, _, bound⟩ := List.exists_of_findSome?_eq_some found
  obtain ⟨name, declares, same⟩ := boundBy?_eq_some bound
  cases declares with
  | parameter _ _ kind => simp [isClass, kind] at isClass'
  | introduced _ _ kind => simp [isClass, kind] at isClass'
  | named _ _ isName => exact ⟨name, isName, same⟩

/-! ## Answers that stand or fall with those they are made of -/

section

variable {source : Source} {holds : String → Prop} {few many : Answers} {cursor : Cursor}

theorem referenceType_passes (hereditary : Hereditary source holds)
    (passed : PassedOn source.root holds few many) (inTree : InTree source.root cursor) :
    Passes holds (referenceType source few cursor) (referenceType source many cursor) := by
  unfold referenceType
  dsimp only
  split
  · exact .some (hereditary.fixed _ (by decide))
  split
  · exact .some (hereditary.fixed _ (by decide))
  split
  · exact .none _ _
  · next declaration found =>
    have declared := inTree.resolved found
    split
    · exact passed.function declared
    split
    · next isClass =>
      obtain ⟨name, isName, same⟩ := className_of_resolve? found isClass
      rw [← same]
      exact .some (hereditary.typeofName (hereditary.className declared isClass isName))
    · exact passed.typeOf declared

theorem returnedByStatements_passes (hereditary : Hereditary source holds)
    (passed : PassedOn source.root holds few many) {statements : List Cursor}
    (inTree : ∀ statement ∈ statements, InTree source.root statement) :
    Passes holds (returnedByStatements few statements) (returnedByStatements many statements) := by
  refine Passes.map (.mapM holds fun statement isStatement => ?_) fun types held => ?_
  · cases found : statement.members with
    | nil => exact .some (hereditary.fixed _ (by decide))
    | cons value rest =>
      have isMember : value ∈ statement.members := found ▸ List.mem_cons_self
      exact passed.expression ((inTree statement isStatement).member isMember)
  · split
    · exact hereditary.fixed _ (by decide)
    · exact hereditary.union held

theorem returnType_passes (hereditary : Hereditary source holds)
    (passed : PassedOn source.root holds few many) (inTree : InTree source.root cursor) :
    Passes holds (returnType source few cursor) (returnType source many cursor) := by
  unfold returnType
  split
  · next written found => exact .some (hereditary.written inTree (.inr rfl) found)
  split
  · exact .none _ _
  split
  · exact .none _ _
  · next body isBody =>
    have inBody := inTree.field isBody
    refine Passes.map (?_ : Passes holds _ _) fun type held => ?_
    · split
      · exact returnedByStatements_passes hereditary passed fun _ isReturn =>
          inBody.returnStatement isReturn
      · exact passed.expression inBody
    · split
      · exact hereditary.promise held
      · exact held

theorem arrayType_passes (hereditary : Hereditary source holds)
    (passed : PassedOn source.root holds few many) (inTree : InTree source.root cursor) :
    Passes holds (arrayType few cursor) (arrayType many cursor) := by
  unfold arrayType
  split
  · exact .some (hereditary.fixed _ (by decide))
  · refine Passes.map (.mapM holds fun element isElement => ?_) fun types held =>
      hereditary.array (hereditary.union held)
    exact .ite (.none _ _) (passed.expression (inTree.member isElement))

theorem memberType_passes (hereditary : Hereditary source holds)
    (passed : PassedOn source.root holds few many) (inTree : InTree source.root cursor) :
    Passes holds (memberType source few cursor) (memberType source many cursor) := by
  unfold memberType
  split
  · next isPair =>
    split
    · next key value isKey isValue =>
      split
      · exact .none _ _
      · next notComputed =>
        have isKey' :
            (cursor.field? "key").filter (·.kind != "computed_property_name") = some key :=
          Option.filter_eq_some_iff.mpr ⟨isKey, by simpa using notComputed⟩
        refine (passed.expression (inTree.field isValue)).map fun type => ?_
        exact hereditary.member inTree _ (by simp [labelSlices, isPair, isKey'])
    · exact .none _ _
  split
  · next isShorthand =>
    refine (passed.reference inTree).map fun type => ?_
    exact hereditary.member inTree _ (by simp [labelSlices, isShorthand])
  split
  · next isMethod =>
    cases isName : cursor.field? "name" with
    | none => exact .none _ _
    | some name =>
      intro answer told
      cases found : few.function cursor with
      | none => simp [found] at told
      | some type =>
        obtain ⟨foundToo, held⟩ := passed.function inTree type found
        obtain rfl : TypeText.member (source.textOf name) type = answer := by
          simpa [found] using told
        refine ⟨by simp [foundToo], ?_⟩
        exact hereditary.member inTree _ (by simp [labelSlices, isMethod, isName]) held
  · exact .none _ _

theorem objectType_passes (hereditary : Hereditary source holds)
    (passed : PassedOn source.root holds few many) (inTree : InTree source.root cursor) :
    Passes holds (objectType source few cursor) (objectType source many cursor) := by
  refine Passes.map (.mapM holds fun member isMember => ?_) fun members => hereditary.object
  exact memberType_passes hereditary passed (inTree.member isMember)

/-- One operand that is a string decides a sum, whatever the other is. -/
theorem binaryType_passes (hereditary : Hereditary source holds)
    (passed : PassedOn source.root holds few many) (inTree : InTree source.root cursor) :
    Passes holds (binaryType source few cursor) (binaryType source many cursor) := by
  have number : holds "number" := hereditary.fixed _ (by decide)
  unfold binaryType
  split
  · exact .none _ _
  split
  · exact .some (hereditary.fixed _ (by decide))
  split
  · exact .some number
  split
  · split
    · next left right isLeft isRight =>
      have leftPasses := passed.expression (inTree.field isLeft)
      have rightPasses := passed.expression (inTree.field isRight)
      intro answer told
      dsimp only at told ⊢
      split at told
      · next isString =>
        have staysString : (many.expression left == some "string" ||
            many.expression right == some "string") = true := by
          simp only [Bool.or_eq_true, beq_iff_eq] at isString ⊢
          exact isString.imp (fun told => (leftPasses _ told).1) fun told => (rightPasses _ told).1
        obtain rfl := Option.some.inj told
        rw [if_pos staysString]
        exact ⟨rfl, hereditary.fixed _ (by decide)⟩
      · split at told
        · next areNumbers =>
          simp only [Bool.and_eq_true, beq_iff_eq] at areNumbers
          obtain rfl := Option.some.inj told
          have leftNumber := (leftPasses "number" areNumbers.1).1
          have rightNumber := (rightPasses "number" areNumbers.2).1
          exact ⟨by simp [leftNumber, rightNumber], number⟩
        · simp at told
    · exact .none _ _
  · exact .none _ _

theorem ternaryType_passes (hereditary : Hereditary source holds)
    (passed : PassedOn source.root holds few many) (inTree : InTree source.root cursor) :
    Passes holds (ternaryType few cursor) (ternaryType many cursor) := by
  unfold ternaryType
  split
  · next consequence alternative isConsequence isAlternative =>
    have leftPasses := (passed.expression (inTree.field isConsequence)).nonempty
    have rightPasses := (passed.expression (inTree.field isAlternative)).nonempty
    intro answer told
    split at told
    · next left right leftTold rightTold =>
      obtain ⟨leftToo, leftHeld⟩ := leftPasses left leftTold
      obtain ⟨rightToo, rightHeld⟩ := rightPasses right rightTold
      obtain rfl := Option.some.inj told
      refine ⟨by simp [leftToo, rightToo], hereditary.union ?_⟩
      simpa using ⟨leftHeld, rightHeld⟩
    · simp at told
  · exact .none _ _

theorem castType_passes (hereditary : Hereditary source holds)
    (passed : PassedOn source.root holds few many) (inTree : InTree source.root cursor) :
    Passes holds (castType source few cursor) (castType source many cursor) := by
  unfold castType
  split
  · next operand type isCast isMembers =>
    exact .some (hereditary.slice inTree _ (by simp [typeSlices, isCast, isMembers]))
  · next operand rest found _ =>
    have isMember : operand ∈ cursor.members := found ▸ List.mem_cons_self
    exact passed.expression (inTree.member isMember)
  · exact .none _ _

theorem constructedType_passes (hereditary : Hereditary source holds)
    (inTree : InTree source.root cursor) (kind : cursor.kind = "new_expression") :
    Passes holds (constructedType source cursor) (constructedType source cursor) := by
  refine .self fun type told => ?_
  obtain ⟨constructor, isConstructor, rfl⟩ := Option.map_eq_some_iff.mp told
  refine hereditary.append
    (hereditary.slice inTree _ (by simp [typeSlices, kind, isConstructor])) ?_
  cases isArguments : cursor.field? "type_arguments" with
  | none => exact hereditary.fixed "" (by decide)
  | some arguments => exact hereditary.slice inTree _ (by simp [typeSlices, kind, isArguments])

theorem declaredType_passes (hereditary : Hereditary source holds)
    (passed : PassedOn source.root holds few many) (inTree : InTree source.root cursor) :
    Passes holds (declaredType source few cursor) (declaredType source many cursor) := by
  unfold declaredType
  split
  · next written found => exact .some (hereditary.written inTree (.inl rfl) found)
  · next value _ isValue => exact passed.expression (inTree.field isValue)
  · exact .some (hereditary.fixed _ (by decide))

theorem parameterType_passes (hereditary : Hereditary source holds)
    (passed : PassedOn source.root holds few many) (inTree : InTree source.root cursor) :
    Passes holds (parameterType source few cursor) (parameterType source many cursor) := by
  unfold parameterType
  split
  · next written found => exact .some (hereditary.written inTree (.inl rfl) found)
  · next value _ isValue => exact passed.expression (inTree.field isValue)
  · exact .ite (.some (hereditary.fixed _ (by decide))) (.some (hereditary.fixed _ (by decide)))

/-! ### Parts of literals -/

/-- More steps find the same literal, if fewer find one, and it stands in the tree. -/
theorem literalBehind?_passes (source : Source) (kind : String) {fewer more : Nat}
    (le : fewer ≤ more) {expression : Option Cursor}
    (inTree : ∀ start, expression = some start → InTree source.root start) :
    Passes (InTree source.root) (literalBehind? source kind fewer expression)
      (literalBehind? source kind more expression) := by
  induction fewer generalizing more expression with
  | zero =>
    rw [literalBehind?]
    exact .none _ _
  | succ fewer ih =>
    obtain ⟨more, rfl⟩ := Nat.exists_eq_add_one_of_ne_zero (Nat.ne_of_gt (Nat.lt_of_lt_of_le
      (Nat.succ_pos fewer) le))
    have le : fewer ≤ more := Nat.le_of_succ_le_succ le
    cases expression with
    | none => exact .none _ _
    | some expression =>
      have inTree := inTree expression rfl
      rw [literalBehind?, literalBehind?]
      split
      · exact .some inTree
      split
      · exact ih le fun inner isHead => inTree.member (List.mem_of_head? isHead)
      split
      · split
        · next parent isParent =>
          obtain ⟨declaration, resolved, isParent⟩ := Option.bind_eq_some_iff.mp isParent
          have inParent := (inTree.resolved resolved).parent isParent
          exact .ite (ih le fun value isValue => inParent.field isValue) (.none _ _)
        · exact .none _ _
      · exact .none _ _

theorem destructuredProperty_passes (passed : PassedOn source.root holds few many)
    {fewer more : Nat} (le : fewer ≤ more) (inTree : InTree source.root cursor) (key : String) :
    Passes holds (destructuredProperty source few fewer cursor key)
      (destructuredProperty source many more cursor key) := by
  have literals := literalBehind?_passes source "object" le fun _ isSource =>
    inTree.patternSource isSource
  cases found : literalBehind? source "object" fewer (patternSource? cursor) with
  | none =>
    simp only [destructuredProperty, found]
    exact .none _ _
  | some literal =>
    obtain ⟨foundToo, inLiteral⟩ := literals literal found
    simp only [destructuredProperty, found, foundToo]
    split
    · exact .none _ _
    · next member isMember =>
      have inMember := inLiteral.member (List.mem_of_find?_eq_some isMember)
      refine .ite ((Passes.refl _).bind fun value isValue _ => ?_) (passed.reference inMember)
      exact passed.expression (inMember.field isValue)

theorem destructuredElement_passes (passed : PassedOn source.root holds few many)
    {fewer more : Nat} (le : fewer ≤ more) (inTree : InTree source.root cursor)
    (binding : Cursor) :
    Passes holds (destructuredElement source few fewer cursor binding)
      (destructuredElement source many more cursor binding) := by
  have literals := literalBehind?_passes source "array" le fun _ isSource =>
    inTree.patternSource isSource
  cases found : literalBehind? source "array" fewer (patternSource? cursor) with
  | none =>
    simp only [destructuredElement, found]
    exact .none _ _
  | some literal =>
    obtain ⟨foundToo, inLiteral⟩ := literals literal found
    simp only [destructuredElement, found, foundToo]
    split
    · exact .none _ _
    split
    · next element isElement =>
      refine .ite (.none _ _) (passed.expression (inLiteral.member ?_))
      exact List.mem_of_getElem? isElement
    · exact .none _ _

end

/-! ## Fallbacks -/

/-- The type that a function type shows for a parameter. -/
def shownType (deeper : Answers) (parameter : Cursor) : String :=
  (nonempty (deeper.typeOf parameter.binding)).getD "any"

/-- The type that a binding with a default has of its own, from what is taken apart. -/
def ownType (source : Source) (deeper : Answers) (steps : Nat) (binding container : Cursor) :
    Option String :=
  if container.kind == "object_assignment_pattern" then
    container.parent?.bind fun pattern =>
      destructuredProperty source deeper steps pattern (source.textOf binding)
  else none

def defaultType (deeper : Answers) (container : Cursor) : Option String :=
  match container.field? "right" with
  | some value => deeper.expression value
  | none => some "any"

/-- Nothing that more steps tell is replaced with fewer: no parameter is shown as `any` by a
function type if its type is told with more, and no default counts if the property's own type is
told with more and is another. -/
structure Steady (source : Source) (fewer more : Nat) : Prop where
  parameter : ∀ {function parameter}, InTree source.root function →
    parameter ∈ function.parameters → ((answers source fewer).returned function).isSome →
    nonempty ((answers source fewer).typeOf parameter.binding) = none →
    shownType (answers source more) parameter = "any"
  property : ∀ {binding container}, InTree source.root binding →
    binding.parent? = some container →
    ownType source (answers source fewer) (fewer + 1) binding container = none →
    ∀ type, defaultType (answers source fewer) container = some type →
    ∀ own, ownType source (answers source more) (more + 1) binding container = some own →
    own = type

theorem Steady.refl (source : Source) (steps : Nat) : Steady source steps steps := by
  constructor
  · intro function parameter _ _ _ missing
    rw [shownType, missing, Option.getD_none]
  · intro binding container _ _ missing type _ own found
    cases missing.symm.trans found

/-- What is awaited has the property. -/
def AwaitedHold (source : Source) (holds : String → Prop) (deeper : Answers) : Prop :=
  ∀ cursor operand text result, InTree source.root cursor → cursor.kind = "await_expression" →
    cursor.members.head? = some operand → deeper.expression operand = some text →
    TypeText.awaited? text = some result → holds result

theorem defaultedType_eq {source : Source} (deeper : Answers) (steps : Nat)
    (binding container : Cursor) :
    defaultedType source deeper steps binding container =
      (ownType source deeper steps binding container).or (defaultType deeper container) := by
  cases own : ownType source deeper steps binding container with
  | some type =>
    unfold ownType at own
    simp only [defaultedType, own, Option.some_or]
  | none =>
    unfold ownType at own
    simp only [defaultedType, own, defaultType, Option.none_or]
    cases container.field? "right" with
    | none => rfl
    | some value => rfl

section

variable {source : Source} {holds : String → Prop} {fewer more : Nat} {cursor : Cursor}

theorem functionType_passes (hereditary : Hereditary source holds)
    (passed : PassedOn source.root holds (answers source fewer) (answers source more))
    (steady : Steady source fewer more) (inTree : InTree source.root cursor) :
    Passes holds (functionType source (answers source fewer) cursor)
      (functionType source (answers source more) cursor) := by
  intro answer told
  obtain ⟨type, returned, rfl⟩ := Option.map_eq_some_iff.mp told
  have shown : ∀ parameter ∈ cursor.parameters,
      shownType (answers source more) parameter = shownType (answers source fewer) parameter ∧
        holds (shownType (answers source fewer) parameter) := by
    intro parameter isParameter
    cases found : nonempty ((answers source fewer).typeOf parameter.binding) with
    | none =>
      rw [steady.parameter inTree isParameter (by simp [returned]) found, shownType, found]
      exact ⟨rfl, hereditary.fixed _ (by decide)⟩
    | some type =>
      obtain ⟨foundToo, held⟩ :=
        (passed.typeOf (inTree.parameter isParameter).binding).nonempty type found
      rw [shownType, shownType, found, foundToo]
      exact ⟨rfl, held⟩
  obtain ⟨returnedToo, held⟩ := passed.returned inTree type returned
  constructor
  · refine Option.map_eq_some_iff.mpr ⟨type, returnedToo, ?_⟩
    refine congrArg (TypeText.function · type) (List.map_congr_left fun parameter isOne => ?_)
    exact congrArg (TypeText.parameter _ _) (shown parameter isOne).1
  · refine hereditary.function (fun text isText => ?_) held
    obtain ⟨parameter, isParameter, rfl⟩ := List.mem_map.mp isText
    have isSlice : source.textOf parameter.binding ∈
        cursor.parameters.map (source.textOf ·.binding) :=
      List.mem_map.mpr ⟨parameter, isParameter, rfl⟩
    exact hereditary.parameter inTree _ (by simp [labelSlices, isSlice]) _
      (shown parameter isParameter).2

theorem expressionType_passes (hereditary : Hereditary source holds)
    (passed : PassedOn source.root holds (answers source fewer) (answers source more))
    (steady : Steady source fewer more)
    (awaited : AwaitedHold source holds (answers source fewer))
    (inTree : InTree source.root cursor) :
    Passes holds (expressionType source (answers source fewer) cursor)
      (expressionType source (answers source more) cursor) := by
  have ofHead : Passes holds (cursor.members.head?.bind (answers source fewer).expression)
      (cursor.members.head?.bind (answers source more).expression) :=
    (Passes.refl _).bind fun _ isHead _ =>
      passed.expression (inTree.member (List.mem_of_head? isHead))
  unfold expressionType
  split
  · next type found => exact .some (hereditary.lookup (by decide) found)
  split
  · exact functionType_passes hereditary passed steady inTree
  split
  · exact referenceType_passes hereditary passed inTree
  · exact ofHead
  · exact arrayType_passes hereditary passed inTree
  · exact objectType_passes hereditary passed inTree
  · next kind =>
    refine .self fun type told => ?_
    obtain ⟨name, isName, rfl⟩ := Option.map_eq_some_iff.mp told
    exact hereditary.typeofName (hereditary.className inTree (by simp [isClass, kind]) isName)
  · next kind => exact constructedType_passes hereditary inTree kind
  · exact castType_passes hereditary passed inTree
  · exact castType_passes hereditary passed inTree
  · next kind =>
    refine .self fun type asserted => ?_
    exact hereditary.slice inTree _ (by simp [typeSlices, kind, asserted])
  · exact (Passes.refl _).bind fun _ isCallee _ => passed.returned (inTree.callee isCallee)
  · exact (Passes.refl _).bind fun _ _ _ => .self fun _ => hereditary.lookup (by decide)
  · exact .some (hereditary.fixed _ (by decide))
  · exact binaryType_passes hereditary passed inTree
  · exact ternaryType_passes hereditary passed inTree
  · exact (Passes.refl _).bind fun _ isRight _ => passed.expression (inTree.field isRight)
  · next kind =>
    refine ofHead.bind fun type told _ => .self fun result isResult => ?_
    obtain ⟨operand, isOperand, told⟩ := Option.bind_eq_some_iff.mp told
    exact awaited cursor operand type result inTree kind isOperand told isResult
  · exact .none _ _

theorem ownType_passes
    (passed : PassedOn source.root holds (answers source fewer) (answers source more))
    (le : fewer ≤ more) {binding container : Cursor} (inTree : InTree source.root container) :
    Passes holds (ownType source (answers source fewer) (fewer + 1) binding container)
      (ownType source (answers source more) (more + 1) binding container) := by
  refine .ite ((Passes.refl _).bind fun pattern isParent _ => ?_) (.none _ _)
  exact destructuredProperty_passes passed (Nat.succ_le_succ le) (inTree.parent isParent) _

theorem defaultType_passes (hereditary : Hereditary source holds)
    (passed : PassedOn source.root holds (answers source fewer) (answers source more))
    (inTree : InTree source.root cursor) :
    Passes holds (defaultType (answers source fewer) cursor)
      (defaultType (answers source more) cursor) := by
  unfold defaultType
  split
  · next value isValue => exact passed.expression (inTree.field isValue)
  · exact .some (hereditary.fixed _ (by decide))

theorem defaultedType_passes (hereditary : Hereditary source holds)
    (passed : PassedOn source.root holds (answers source fewer) (answers source more))
    (steady : Steady source fewer more) (le : fewer ≤ more) {binding container : Cursor}
    (inTree : InTree source.root binding) (isParent : binding.parent? = some container) :
    Passes holds (defaultedType source (answers source fewer) (fewer + 1) binding container)
      (defaultedType source (answers source more) (more + 1) binding container) := by
  have inContainer := inTree.parent isParent
  intro answer told
  rw [defaultedType_eq] at told ⊢
  rcases Option.or_eq_some_iff.mp told with own | ⟨missing, fallback⟩
  · obtain ⟨ownToo, held⟩ := ownType_passes passed le inContainer answer own
    rw [ownToo, Option.some_or]
    exact ⟨rfl, held⟩
  · obtain ⟨fallbackToo, held⟩ := defaultType_passes hereditary passed inContainer answer fallback
    refine ⟨?_, held⟩
    cases found : ownType source (answers source more) (more + 1) binding container with
    | none => rwa [Option.none_or]
    | some own =>
      rw [steady.property inTree isParent missing answer fallback own found, Option.some_or]

theorem bindingType_passes (hereditary : Hereditary source holds)
    (passed : PassedOn source.root holds (answers source fewer) (answers source more))
    (steady : Steady source fewer more)
    (awaited : AwaitedHold source holds (answers source fewer)) (le : fewer ≤ more)
    (inTree : InTree source.root cursor) :
    Passes holds (bindingType source (answers source fewer) (fewer + 1) cursor)
      (bindingType source (answers source more) (more + 1) cursor) := by
  have le' := Nat.succ_le_succ le
  have isExpression := expressionType_passes hereditary passed steady awaited inTree
  unfold bindingType
  split
  · exact isExpression
  · next parent isParent =>
    have inParent := inTree.parent isParent
    have isDeclared := declaredType_passes hereditary passed inParent
    have isDefaulted := defaultedType_passes hereditary passed steady le inTree isParent
    refine .ite isDeclared (.ite (parameterType_passes hereditary passed inParent) ?_)
    refine .ite isDefaulted (.ite (.some (hereditary.fixed _ (by decide))) ?_)
    refine .ite isDeclared (.ite isDefaulted ?_)
    refine .ite (destructuredProperty_passes passed le' inParent _) (.ite ?_ ?_)
    · split
      · next pattern _ isPattern =>
        exact destructuredProperty_passes passed le' (inParent.parent isPattern) _
      · exact .none _ _
    refine .ite (destructuredElement_passes passed le' inParent _) ?_
    exact .ite (referenceType_passes hereditary passed inTree) isExpression

end

/-! ## One step more -/

section

variable {source : Source} {holds : String → Prop} {fewer more : Nat}

theorem passedOn_silent (root : Node) (holds : String → Prop) (many : Answers) :
    PassedOn root holds silent many :=
  ⟨fun _ => .none _ _, fun _ => .none _ _, fun _ => .none _ _, fun _ => .none _ _,
    fun _ => .none _ _⟩

/-- Without any steps only names are told, and for these no step is needed. -/
theorem passedOn_zero (hereditary : Hereditary source holds) (more : Nat) :
    PassedOn source.root holds (answers source 0) (answers source more) := by
  refine ⟨fun _ => .none _ _, fun _ => .none _ _, fun _ => .none _ _, fun _ => .none _ _, ?_⟩
  intro cursor inTree
  cases more with
  | zero => exact referenceType_passes hereditary (passedOn_silent _ _ _) inTree
  | succ more => exact referenceType_passes hereditary (passedOn_silent _ _ _) inTree

theorem passedOn_succ (hereditary : Hereditary source holds)
    (passed : PassedOn source.root holds (answers source fewer) (answers source more))
    (steady : Steady source fewer more)
    (awaited : AwaitedHold source holds (answers source fewer)) (le : fewer ≤ more) :
    PassedOn source.root holds (answers source (fewer + 1)) (answers source (more + 1)) :=
  ⟨bindingType_passes hereditary passed steady awaited le,
    expressionType_passes hereditary passed steady awaited,
    functionType_passes hereditary passed steady, returnType_passes hereditary passed,
    referenceType_passes hereditary passed⟩

end

end Inlay.Infer
