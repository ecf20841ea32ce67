import Inlay.Proofs.Heredity

/-!
What is told with few steps and what with more.

What few steps tell, more steps tell too, unless something else stands in for an answer that is
missing with few. A source is steady if nothing that more steps tell is replaced so. Sources without
defaults are.
-/

namespace Inlay.Infer

open Inlay.Tree
open Inlay.Tree.Cursor (InTree)

/-- What the first tells, the second tells too. -/
def Kept {α : Type} (few many : Option α) : Prop := ∀ answer, few = some answer → many = some answer

theorem Passes.kept {α : Type} {holds : α → Prop} {few many : Option α}
    (passes : Passes holds few many) : Kept few many :=
  fun answer told => (passes answer told).1

/-- In a tree, what the first answers tell the second tell too. -/
structure KeptBy (root : Node) (few many : Answers) : Prop where
  typeOf : ∀ {cursor}, InTree root cursor → Kept (few.typeOf cursor) (many.typeOf cursor)
  expression : ∀ {cursor}, InTree root cursor →
    Kept (few.expression cursor) (many.expression cursor)
  function : ∀ {cursor}, InTree root cursor → Kept (few.function cursor) (many.function cursor)
  returned : ∀ {cursor}, InTree root cursor → Kept (few.returned cursor) (many.returned cursor)
  reference : ∀ {cursor}, InTree root cursor → Kept (few.reference cursor) (many.reference cursor)

theorem PassedOn.keptBy {root : Node} {holds : String → Prop} {few many : Answers}
    (passed : PassedOn root holds few many) : KeptBy root few many :=
  ⟨fun inTree => (passed.typeOf inTree).kept, fun inTree => (passed.expression inTree).kept,
    fun inTree => (passed.function inTree).kept, fun inTree => (passed.returned inTree).kept,
    fun inTree => (passed.reference inTree).kept⟩

/-! ## All depths -/

/-- A source is steady at every depth. -/
def SteadyThroughout (source : Source) : Prop :=
  ∀ fewer more, fewer ≤ more → more ≤ maxDepth → Steady source fewer more

theorem answers_passed {source : Source} (steady : SteadyThroughout source) {fewer more : Nat}
    (le : fewer ≤ more) (inDepth : more ≤ maxDepth + 1) :
    PassedOn source.root (fun _ => True) (answers source fewer) (answers source more) := by
  induction fewer generalizing more with
  | zero => exact passedOn_zero (hereditary_true source) more
  | succ fewer ih =>
    obtain ⟨more, rfl⟩ : ∃ most, more = most + 1 := ⟨more - 1, by omega⟩
    have le := Nat.le_of_succ_le_succ le
    have inDepth := Nat.le_of_succ_le_succ inDepth
    exact passedOn_succ (hereditary_true source) (ih le (Nat.le_succ_of_le inDepth))
      (steady fewer more le inDepth) (fun _ _ _ _ _ _ _ _ _ => trivial) le

/-! ## Sources without defaults -/

/-- Whether a binding names a parameter that has no default. -/
def isPlainParameter (binding : Cursor) : Bool :=
  match binding.parent? with
  | none => false
  | some parent =>
    parent.isParameter && binding.isFieldOf parent "pattern" && (parent.field? "value").isNone ||
      (parent.kind == "formal_parameters" ||
        parent.kind == "arrow_function" && binding.isFieldOf parent "parameter")

/-- No parameter and no property that a pattern binds has a default. -/
structure Undefaulted (source : Source) : Prop where
  parameter : ∀ {function parameter}, InTree source.root function →
    parameter ∈ function.parameters → isPlainParameter parameter.binding = true
  property : ∀ {cursor}, InTree source.root cursor → cursor.kind ≠ "object_assignment_pattern"

theorem kind_ne_of_isParameter {cursor : Cursor} (isParameter : cursor.isParameter = true) :
    cursor.kind ≠ "variable_declarator" := by
  intro kind
  simp [Cursor.isParameter, kind, parameterKinds] at isParameter

/-- The type of a parameter without a default rests on no other answers. -/
theorem bindingType_of_plain (source : Source) {binding : Cursor}
    (plain : isPlainParameter binding = true) (deeper deeper' : Answers) (steps steps' : Nat) :
    bindingType source deeper steps binding = bindingType source deeper' steps' binding := by
  unfold isPlainParameter at plain
  split at plain
  · simp at plain
  · next parent isParent =>
    simp only [Bool.or_eq_true, Bool.and_eq_true, Option.isNone_iff_eq_none, beq_iff_eq] at plain
    rcases plain with ⟨⟨isParameter, isPattern⟩, noValue⟩ | bare
    · have typed : ∀ deeper steps,
          bindingType source deeper steps binding = parameterType source deeper parent := by
        intro deeper steps
        simp [bindingType, isParent, kind_ne_of_isParameter isParameter, isParameter, isPattern]
      rw [typed, typed, parameterType, parameterType, noValue]
      cases writtenType? source parent "type" <;> rfl
    · have untyped : ∀ deeper steps, bindingType source deeper steps binding = some "any" := by
        intro deeper steps
        rcases bare with kind | ⟨kind, isBare⟩
        · simp [bindingType, isParent, Cursor.isParameter, kind, parameterKinds]
        · simp [bindingType, isParent, Cursor.isParameter, kind, parameterKinds, isBare]
      rw [untyped, untyped]

/-- In a source without defaults nothing can be replaced. -/
theorem Undefaulted.steady {source : Source} (undefaulted : Undefaulted source) :
    SteadyThroughout source := by
  intro fewer more le _
  constructor
  · intro function parameter inTree isParameter returned missing
    have plain := undefaulted.parameter inTree isParameter
    cases fewer with
    | zero => simp [answers, silent] at returned
    | succ fewer =>
      cases more with
      | zero => simp at le
      | succ more =>
        have same : (answers source (more + 1)).typeOf parameter.binding =
            (answers source (fewer + 1)).typeOf parameter.binding :=
          bindingType_of_plain source plain _ _ _ _
        simp [shownType, same, missing]
  · intro binding container inTree isParent _ type _ own found
    have plain := undefaulted.property (inTree.parent isParent)
    simp [ownType, plain] at found

/-- In a steady source, a type that is told at some depth is told at every smaller depth, and is the
same. Sources without defaults are steady. -/
theorem depth_only_withholds_while_steady (source : Source) :
    (SteadyThroughout source → ∀ shallow deep, shallow ≤ deep →
      KeptBy source.root (atDepth source deep) (atDepth source shallow)) ∧
    (Undefaulted source → SteadyThroughout source) := by
  constructor
  · intro steady shallow deep le
    have fewer : maxDepth + 1 - deep ≤ maxDepth + 1 - shallow := Nat.sub_le_sub_left le _
    exact (answers_passed steady fewer (Nat.sub_le _ _)).keptBy
  · exact Undefaulted.steady

/-- A variable stands for another that holds a function. Its type is told at depth 2, and so it is
at depth 0. -/
theorem alias_type_kept :
    let node := fun kind start stop fields children =>
      Node.mk ⟨kind, true, false, false, false, start, stop, fields⟩ children
    let arrow := node "arrow_function" 10 18 ["value"]
      [node "formal_parameters" 10 13 ["parameters"]
        [node "required_parameter" 11 12 [] [node "identifier" 11 12 ["pattern"] []]],
        node "identifier" 17 18 ["body"] []]
    let held := node "lexical_declaration" 0 19 []
      [node "variable_declarator" 6 18 [] [node "identifier" 6 7 ["name"] [], arrow]]
    let name := node "identifier" 26 27 ["name"] []
    let declarator := node "variable_declarator" 26 31 []
      [name, node "identifier" 30 31 ["value"] []]
    let copy := node "lexical_declaration" 20 32 [] [declarator]
    let root := node "program" 0 32 [] [held, copy]
    let source : Source :=
      ⟨"a.ts", "const f = (x) => x;\nconst g = f;", .typescript, root, 0⟩
    let cursor : Cursor := ⟨name, [declarator, copy, root]⟩
    Undefaulted source ∧ (atDepth source 2).typeOf cursor = some "(x: any) => any" ∧
      (atDepth source 0).typeOf cursor = some "(x: any) => any" := by
  intro node arrow held name declarator copy root source cursor
  have plain : ∀ function ∈ Cursor.cursorsAt [] root, ∀ parameter ∈ function.parameters,
      isPlainParameter parameter.binding = true := by decide
  have unpatterned : ∀ cursor ∈ Cursor.cursorsAt [] root,
      cursor.kind ≠ "object_assignment_pattern" := by decide
  have undefaulted : Undefaulted source :=
    ⟨fun inTree => plain _ inTree.mem_cursorsAt _, fun inTree => unpatterned _ inTree.mem_cursorsAt⟩
  have inTree : InTree source.root cursor :=
    .child (.child (.child .top (.tail _ (.head _))) (.head _)) (.head _)
  have told : (atDepth source 2).typeOf cursor = some "(x: any) => any" := by decide
  obtain ⟨withholds, steady⟩ := depth_only_withholds_while_steady source
  exact ⟨undefaulted, told,
    (withholds (steady undefaulted) 0 2 (by decide)).typeOf inTree _ told⟩

/-- Deeper down, the function type of an arrow with a default shows `any` for a number, and a
default counts although the property that it is for has a type of its own. -/
theorem fallbacks_replace_withheld_types :
    let node := fun kind start stop fields children =>
      Node.mk ⟨kind, true, false, false, false, start, stop, fields⟩ children
    let arrow := node "arrow_function" 0 13 []
      [node "formal_parameters" 0 7 ["parameters"]
        [node "required_parameter" 1 6 []
          [node "identifier" 1 2 ["pattern"] [], node "number" 5 6 ["value"] []]],
        node "statement_block" 11 13 ["body"] []]
    let statement := node "expression_statement" 0 14 [] [arrow]
    let root := node "program" 0 14 [] [statement]
    let source : Source := ⟨"a.ts", "(x = 1) => {};", .typescript, root, 0⟩
    let function : Cursor := ⟨arrow, [statement, root]⟩
    let left := node "shorthand_property_identifier_pattern" 8 9 ["left"] []
    let defaulted := node "object_assignment_pattern" 8 13 []
      [left, node "number" 12 13 ["right"] []]
    let pattern := node "object_pattern" 6 15 ["name"] [defaulted]
    let value := node "parenthesized_expression" 23 29 ["value"] [node "true" 24 28 [] []]
    let literal := node "object" 18 31 ["value"]
      [node "pair" 20 29 [] [node "property_identifier" 20 21 ["key"] [], value]]
    let declarator := node "variable_declarator" 6 31 [] [pattern, literal]
    let declaration := node "lexical_declaration" 0 32 [] [declarator]
    let root' := node "program" 0 32 [] [declaration]
    let source' : Source :=
      ⟨"a.ts", "const { a = 1 } = { a: (true) };", .typescript, root', 0⟩
    let binding : Cursor := ⟨left, [defaulted, pattern, declarator, declaration, root']⟩
    (atDepth source 0).function function = some "(x: number) => void" ∧
      (atDepth source 7).function function = some "(x: any) => void" ∧
      (atDepth source' 0).typeOf binding = some "boolean" ∧
      (atDepth source' 7).typeOf binding = some "number" := by
  decide

end Inlay.Infer
