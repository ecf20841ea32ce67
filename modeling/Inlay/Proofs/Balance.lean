import Inlay.Proofs.Brackets
import Inlay.Proofs.Heredity

/-!
Brackets in what is told.

The texts of types are put together from pieces of the source and from each other, and nearly every
way of doing so keeps brackets in pairs. Only awaiting cuts a text: what begins as a promise and
ends in an angle bracket loses both ends. So all that is told is balanced just if the two ends
belong together wherever something is awaited.
-/

namespace Inlay.Infer

open Inlay.Tree
open Inlay.Text
open Inlay.Tree.Cursor (InTree)

/-- What is told, if anything is, has the property. -/
def Tells (holds : String → Prop) (answer : Option String) : Prop :=
  ∀ text, answer = some text → holds text

theorem Passes.tells {holds : String → Prop} {few many : Option String}
    (passes : Passes holds few many) : Tells holds few :=
  fun text told => (passes text told).2

/-- In a tree, all that is told has the property. -/
structure TellsAll (root : Node) (holds : String → Prop) (answers : Answers) : Prop where
  typeOf : ∀ {cursor}, InTree root cursor → Tells holds (answers.typeOf cursor)
  expression : ∀ {cursor}, InTree root cursor → Tells holds (answers.expression cursor)
  function : ∀ {cursor}, InTree root cursor → Tells holds (answers.function cursor)
  returned : ∀ {cursor}, InTree root cursor → Tells holds (answers.returned cursor)
  reference : ∀ {cursor}, InTree root cursor → Tells holds (answers.reference cursor)

theorem PassedOn.tellsAll {root : Node} {holds : String → Prop} {few many : Answers}
    (passed : PassedOn root holds few many) : TellsAll root holds few :=
  ⟨fun inTree => (passed.typeOf inTree).tells, fun inTree => (passed.expression inTree).tells,
    fun inTree => (passed.function inTree).tells, fun inTree => (passed.returned inTree).tells,
    fun inTree => (passed.reference inTree).tells⟩

theorem TellsAll.imp {root : Node} {holds holds' : String → Prop} {answers : Answers}
    (tells : TellsAll root holds answers) (imp : ∀ text, holds text → holds' text) :
    TellsAll root holds' answers :=
  ⟨fun inTree text told => imp text (tells.typeOf inTree text told),
    fun inTree text told => imp text (tells.expression inTree text told),
    fun inTree text told => imp text (tells.function inTree text told),
    fun inTree text told => imp text (tells.returned inTree text told),
    fun inTree text told => imp text (tells.reference inTree text told)⟩

def IsBalanced (text : String) : Prop := Balanced text.toList

def IsClosed (text : String) : Prop := Closed text.toList

instance (text : String) : Decidable (IsClosed text) :=
  inferInstanceAs (Decidable (Closed text.toList))

/-! ## Pieces of the source -/

/-- The pieces of the source that stand in texts are balanced, and those for types do not end in an
equals sign, which would make an arrow of a bracket after them. -/
structure SlicesClosed (source : Source) : Prop where
  types : ∀ {cursor}, InTree source.root cursor → ∀ text ∈ typeSlices source cursor, IsClosed text
  labels : ∀ {cursor}, InTree source.root cursor →
    ∀ text ∈ labelSlices source cursor, IsBalanced text

/-- Texts made of closed ones are closed. -/
theorem SlicesClosed.hereditary {source : Source} (slices : SlicesClosed source) :
    Hereditary source IsClosed where
  fixed := by decide
  slice := slices.types
  append closed closed' := by
    unfold IsClosed
    rw [String.toList_append]
    exact Closed.append closed closed'
  typeofName := TypeText.closed_typeofName
  promise := TypeText.closed_promise
  array := TypeText.closed_array
  union := TypeText.closed_union
  object := TypeText.closed_object
  member inTree label isLabel := TypeText.closed_member (slices.labels inTree label isLabel)
  parameter inTree label isLabel isOptional :=
    TypeText.closed_parameter (slices.labels inTree label isLabel) isOptional
  function := TypeText.closed_function

/-! ## Awaiting -/

/-- The inside of what begins as a promise and ends in an angle bracket. -/
def Promises (text : String) (inner : List Char) : Prop :=
  text.toList = "Promise<".toList ++ inner ++ ['>']

theorem awaited?_of_promises {text : String} {inner : List Char} (promises : Promises text inner) :
    TypeText.awaited? text = some (String.ofList inner) := by
  have begins : after? "Promise<".toList text.toList = some (inner ++ ['>']) :=
    after?_eq_some_iff.mpr (by rw [promises, List.append_assoc])
  have ends : text.toList.getLast? = some '>' := by
    rw [promises, List.getLast?_concat]
  simp only [TypeText.awaited?, begins, ends, List.dropLast_concat]

theorem awaited?_eq_some {text result : String} (told : TypeText.awaited? text = some result) :
    Promises text result.toList ∨ result = text := by
  unfold TypeText.awaited? at told
  dsimp only at told
  split at told
  · next rest begins ends =>
    obtain rfl := Option.some.inj told
    have begins := after?_eq_some_iff.mp begins
    left
    rcases List.eq_nil_or_concat rest with rfl | ⟨inner, last, rfl⟩
    · rw [begins] at ends
      exact absurd ends (by decide)
    · rw [List.concat_eq_append] at begins ⊢
      rw [begins, ← List.append_assoc, List.getLast?_concat] at ends
      obtain rfl := Option.some.inj ends
      have inside : (String.ofList inner).toList = inner := String.toList_ofList
      rw [Promises, begins, List.dropLast_concat, inside, List.append_assoc]
  · split at told
    · simp at told
    · exact .inr (Option.some.inj told).symm

/-- What is awaited is balanced inside, if its two ends belong together. -/
theorem closed_of_awaited? {text result : String} (closed : IsClosed text)
    (pairs : ∀ inner, Promises text inner → PairsAtEnd "Promise<".toList (inner ++ ['>']))
    (told : TypeText.awaited? text = some result) : IsClosed result := by
  rcases awaited?_eq_some told with promises | rfl
  · unfold IsClosed at closed
    rw [promises] at closed
    exact (pairsAtEnd_iff (by decide) closed).mp (pairs _ promises)
  · exact closed

/-- Of every text that is awaited as a promise, the first bracket has its partner at the end. -/
def AwaitsWhole (source : Source) (deeper : Answers) : Prop :=
  ∀ cursor operand text inner, InTree source.root cursor → cursor.kind = "await_expression" →
    cursor.members.head? = some operand → deeper.expression operand = some text →
    Promises text inner → PairsAtEnd "Promise<".toList (inner ++ ['>'])

theorem AwaitsWhole.awaitedHold {source : Source} {deeper : Answers}
    (whole : AwaitsWhole source deeper) (closed : TellsAll source.root IsClosed deeper) :
    AwaitedHold source IsClosed deeper := by
  intro cursor operand text result inTree kind isOperand told awaited
  have inOperand := inTree.member (List.mem_of_head? isOperand)
  refine closed_of_awaited? (closed.expression inOperand text told) (fun inner promises => ?_)
    awaited
  exact whole cursor operand text inner inTree kind isOperand told promises

/-! ## All depths -/

theorem answers_closed {source : Source} (slices : SlicesClosed source) {steps : Nat}
    (whole : ∀ fewer < steps, AwaitsWhole source (answers source fewer)) :
    PassedOn source.root IsClosed (answers source steps) (answers source steps) := by
  induction steps with
  | zero => exact passedOn_zero slices.hereditary 0
  | succ steps ih =>
    have closed := ih fun fewer isFewer => whole fewer (Nat.lt_succ_of_lt isFewer)
    have awaited := (whole steps (Nat.lt_succ_self steps)).awaitedHold closed.tellsAll
    exact passedOn_succ slices.hereditary closed (.refl source steps) awaited (Nat.le_refl steps)

/-- An await expression is told what is inside of the promise that it awaits. -/
theorem expression_of_await {source : Source} {depth : Nat} {cursor operand : Cursor}
    {text : String} {inner : List Char} (kind : cursor.kind = "await_expression")
    (isOperand : cursor.members.head? = some operand)
    (told : (atDepth source (depth + 1)).expression operand = some text)
    (promises : Promises text inner) :
    (atDepth source depth).expression cursor = some (String.ofList inner) := by
  have shallow : depth < maxDepth := by
    rcases Nat.lt_or_ge depth maxDepth with shallow | deep
    · exact shallow
    · have none : maxDepth + 1 - (depth + 1) = 0 := by omega
      simp [atDepth, none, answers, silent] at told
  have left : maxDepth + 1 - depth = maxDepth + 1 - (depth + 1) + 1 := by omega
  have isExpression : (atDepth source depth).expression cursor =
      expressionType source (atDepth source (depth + 1)) cursor := by
    rw [atDepth, left]
    rfl
  have notLiteral : literalTypes.lookup "await_expression" = none := rfl
  have notFunction : cursor.isFunction = false := by
    simp [Cursor.isFunction, functionKinds, kind]
  rw [isExpression]
  simp [expressionType, notLiteral, notFunction, kind, isOperand, told,
    awaited?_of_promises promises]

/-- If the pieces of the source are closed, all that is told is balanced at every depth just if the
ends of every promise that is awaited belong together. -/
theorem told_texts_balanced_iff_awaits_whole {source : Source} (slices : SlicesClosed source) :
    (∀ depth, AwaitsWhole source (atDepth source (depth + 1))) ↔
      ∀ depth, TellsAll source.root IsBalanced (atDepth source depth) := by
  constructor
  · intro whole depth
    have closed : TellsAll source.root IsClosed (atDepth source depth) := by
      refine (answers_closed slices fun fewer isFewer => ?_).tellsAll
      have atFewer : answers source fewer = atDepth source (maxDepth - fewer + 1) := by
        have left : maxDepth + 1 - (maxDepth - fewer + 1) = fewer := by omega
        rw [atDepth, left]
      rw [atFewer]
      exact whole _
    exact closed.imp fun _ => Closed.balanced
  · intro balanced depth cursor operand text inner inTree kind isOperand told promises
    have inside := (balanced depth).expression inTree _
      (expression_of_await kind isOperand told promises)
    rw [IsBalanced, String.toList_ofList] at inside
    exact inside.pairsAtEnd (by decide)

/-- A promise of an array is awaited. -/
theorem awaited_array_balanced :
    let node := fun kind start stop fields children =>
      Node.mk ⟨kind, true, false, false, false, start, stop, fields⟩ children
    let await := node "await_expression" 0 7 [] [node "identifier" 6 7 [] []]
    let statement := node "expression_statement" 0 8 [] [await]
    let declarator := node "variable_declarator" 15 39 [] [node "identifier" 15 16 ["name"] [],
      node "type_annotation" 16 35 ["type"] [], node "identifier" 38 39 ["value"] []]
    let root := node "program" 0 40 []
      [statement, node "lexical_declaration" 9 40 [] [declarator]]
    let source : Source :=
      ⟨"a.ts", "await h; const h: Promise<string[]> = x;", .typescript, root, 0⟩
    SlicesClosed source ∧
      (atDepth source 0).expression ⟨await, [statement, root]⟩ = some "string[]" ∧
      ∀ depth, TellsAll source.root IsBalanced (atDepth source depth) := by
  intro node await statement declarator root source
  have types : ∀ cursor ∈ Cursor.cursorsAt [] root, ∀ text ∈ typeSlices source cursor,
      IsClosed text := by decide
  have labels : ∀ cursor ∈ Cursor.cursorsAt [] root, ∀ text ∈ labelSlices source cursor,
      IsClosed text := by decide
  have slices : SlicesClosed source :=
    ⟨fun inTree => types _ inTree.mem_cursorsAt,
      fun inTree text isLabel => (labels _ inTree.mem_cursorsAt text isLabel).balanced⟩
  have awaited : ∀ steps < maxDepth + 1, ∀ cursor ∈ Cursor.cursorsAt [] root,
      cursor.kind = "await_expression" →
        cursor.members.head?.bind (answers source steps).expression = none ∨
        cursor.members.head?.bind (answers source steps).expression =
          some "Promise<string[]>" := by decide
  have whole : ∀ depth, AwaitsWhole source (atDepth source (depth + 1)) := by
    intro depth cursor operand text inner inTree kind isOperand told promises
    have told : cursor.members.head?.bind (atDepth source (depth + 1)).expression = some text := by
      rw [isOperand, Option.bind_some, told]
    have isText : text = "Promise<string[]>" := by
      have fewer : maxDepth + 1 - (depth + 1) < maxDepth + 1 := by omega
      rcases awaited _ fewer cursor inTree.mem_cursorsAt kind with none | some
      · cases none.symm.trans told
      · exact Option.some.inj (told.symm.trans some)
    have isInner : String.ofList inner = "string[]" := by
      have inside := awaited?_of_promises promises
      rw [isText] at inside
      exact Option.some.inj (inside.symm.trans (by decide))
    have closed : Closed inner := by
      rw [← String.toList_ofList (l := inner), isInner]
      decide
    exact closed.balanced.pairsAtEnd (by decide)
  exact ⟨slices, by decide, (told_texts_balanced_iff_awaits_whole slices).mp whole⟩

/-- The first bracket and the last do not belong together if the operand is one of two promises. -/
theorem awaited_union_is_cut :
    let node := fun kind start stop fields children =>
      Node.mk ⟨kind, true, false, false, false, start, stop, fields⟩ children
    let await := node "await_expression" 0 7 [] [node "identifier" 6 7 [] []]
    let statement := node "expression_statement" 0 8 [] [await]
    let declarator := node "variable_declarator" 15 55 [] [node "identifier" 15 16 ["name"] [],
      node "type_annotation" 16 51 ["type"] [], node "identifier" 54 55 ["value"] []]
    let root := node "program" 0 56 []
      [statement, node "lexical_declaration" 9 56 [] [declarator]]
    let source : Source := ⟨"a.ts", "await h; const h: Promise<string> | Promise<number> = x;",
      .typescript, root, 0⟩
    SlicesClosed source ∧
      (atDepth source 0).expression ⟨await, [statement, root]⟩ =
        some "string> | Promise<number" ∧
      ¬ IsBalanced "string> | Promise<number" := by
  intro node await statement declarator root source
  have types : ∀ cursor ∈ Cursor.cursorsAt [] root, ∀ text ∈ typeSlices source cursor,
      IsClosed text := by decide
  have labels : ∀ cursor ∈ Cursor.cursorsAt [] root, ∀ text ∈ labelSlices source cursor,
      IsClosed text := by decide
  have stuck : Scan.start.run "string> | Promise<number".toList = none := by decide
  refine ⟨⟨fun inTree => types _ inTree.mem_cursorsAt,
    fun inTree text isLabel => (labels _ inTree.mem_cursorsAt text isLabel).balanced⟩,
    by decide, ?_⟩
  rintro ⟨last, ran⟩
  rw [stuck] at ran
  simp at ran

end Inlay.Infer
