import Inlay.Proofs.Traversal

/-!
The nodes of a tree, and that no way through a tree leaves it.

What children inherit from their parent is inherited by members, fields and parameters alike, so
that a property of cursors need only be followed to children. Standing in a tree is one such
property. It is passed on to parents as well, and with them to declarations and callees.
-/

namespace Inlay

open Inlay.Tree

namespace Tree.Cursor

/-- A property of cursors passes from parents to children. -/
def Inherited (holds : Cursor → Prop) : Prop :=
  ∀ cursor child : Cursor, holds cursor → child ∈ cursor.children → holds child

section

variable {holds : Cursor → Prop} {cursor target : Cursor}

theorem Inherited.member (inherited : Inherited holds) (held : holds cursor)
    (isMember : target ∈ cursor.members) : holds target :=
  inherited _ _ held (List.mem_filter.mp isMember).1

theorem Inherited.field (inherited : Inherited holds) (held : holds cursor) {name : String}
    (isField : cursor.field? name = some target) : holds target :=
  inherited _ _ held (List.mem_reverse.mp (List.mem_of_find?_eq_some isField))

theorem Inherited.walked (inherited : Inherited holds) (held : holds cursor)
    (walked : target ∈ cursor.walk) : holds target := by
  rw [walk_eq_given] at walked
  exact (Traversal.of_mem_given (fun _ _ held _ => inherited _ _ held) held walked).2

theorem Inherited.parameter (inherited : Inherited holds) (held : holds cursor)
    (isParameter : target ∈ cursor.parameters) : holds target := by
  unfold parameters at isParameter
  split at isParameter
  · next single =>
    obtain rfl := List.mem_singleton.mp isParameter
    exact inherited.field held single
  · next list => exact inherited.member (inherited.field held list) isParameter
  · simp at isParameter

theorem Inherited.binding (inherited : Inherited holds) (held : holds cursor) :
    holds cursor.binding := by
  have orSelf : ∀ name, holds ((cursor.field? name).getD cursor) := by
    intro name
    cases found : cursor.field? name with
    | none => exact held
    | some field => exact inherited.field held found
  unfold Cursor.binding
  split
  · exact orSelf "pattern"
  · split
    · exact orSelf "left"
    · exact held

end

/-- A cursor stands in a tree: at its root, or at a child of a cursor that stands there. -/
inductive InTree (root : Node) : Cursor → Prop
  | top : InTree root (top root)
  | child {cursor child : Cursor} (inTree : InTree root cursor)
      (isChild : child ∈ cursor.children) : InTree root child

theorem inherited_inTree (root : Node) : Inherited (InTree root) := fun _ _ => InTree.child

namespace InTree

variable {root : Node} {cursor target : Cursor} {source : Source}

theorem member (inTree : InTree root cursor) (isMember : target ∈ cursor.members) :
    InTree root target :=
  (inherited_inTree root).member inTree isMember

theorem field (inTree : InTree root cursor) {name : String}
    (isField : cursor.field? name = some target) : InTree root target :=
  (inherited_inTree root).field inTree isField

theorem parameter (inTree : InTree root cursor) (isParameter : target ∈ cursor.parameters) :
    InTree root target :=
  (inherited_inTree root).parameter inTree isParameter

theorem binding (inTree : InTree root cursor) : InTree root cursor.binding :=
  (inherited_inTree root).binding inTree

theorem ancestor (inTree : InTree root cursor) (isAncestor : target ∈ cursor.ancestors) :
    InTree root target := by
  induction inTree with
  | top => simp [ancestors, Cursor.top, ofAncestors] at isAncestor
  | child inTree isChild ih =>
    obtain ⟨node, _, rfl⟩ := List.mem_map.mp isChild
    rcases List.mem_cons.mp isAncestor with rfl | farther
    · exact inTree
    · exact ih farther

theorem parent (inTree : InTree root cursor) (isParent : cursor.parent? = some target) :
    InTree root target :=
  inTree.ancestor (List.mem_of_head? isParent)

/-! ### Declarations and callees -/

theorem parameterNamed (inTree : InTree root cursor) {name : String}
    (found : Infer.parameterNamed? source cursor name = some target) : InTree root target := by
  obtain ⟨parameter, isParameter, rfl⟩ := List.mem_map.mp (List.mem_of_find?_eq_some found)
  exact (inTree.parameter isParameter).binding

theorem exported (inTree : InTree root cursor) (found : Infer.exported? cursor = some target) :
    InTree root target := by
  unfold Infer.exported? at found
  split at found
  · exact inTree.field found
  · obtain rfl := Option.some.inj found
    exact inTree

theorem declaredBy (inTree : InTree root cursor) {name : String}
    (found : Infer.declaredBy? source name cursor = some target) : InTree root target := by
  unfold Infer.declaredBy? at found
  split at found
  · obtain ⟨declarator, isMember, isName⟩ :=
      List.mem_filterMap.mp (List.mem_of_find?_eq_some found)
    exact (inTree.member (List.mem_filter.mp isMember).1).field isName
  · split at found
    · split at found
      · obtain rfl := Option.some.inj found
        exact inTree
      · simp at found
    · simp at found

theorem declaredIn (inTree : InTree root cursor) {name : String}
    (found : Infer.declaredIn? source cursor name = some target) : InTree root target := by
  obtain ⟨statement, isStatement, declared⟩ := List.exists_of_findSome?_eq_some found
  obtain ⟨member, isMember, isExported⟩ := List.mem_filterMap.mp isStatement
  exact ((inTree.member isMember).exported isExported).declaredBy declared

theorem boundBy (inTree : InTree root cursor) {name : String} {reference : Cursor}
    (found : Infer.boundBy? source name reference cursor = some target) : InTree root target := by
  unfold Infer.boundBy? at found
  rcases Option.or_eq_some_iff.mp found with found | ⟨_, found⟩
  · split at found
    · exact inTree.parameterNamed found
    · simp at found
  · split at found
    · exact inTree.declaredIn (Option.filter_eq_some_iff.mp found).1
    · simp at found

/-- What a reference means stands in the same tree. -/
theorem resolved (inTree : InTree root cursor)
    (found : Infer.resolve? source cursor = some target) : InTree root target := by
  obtain ⟨scope, isAncestor, bound⟩ := List.exists_of_findSome?_eq_some found
  exact (inTree.ancestor isAncestor).boundBy bound

theorem outward (inTree : InTree root cursor) (isOutward : target ∈ cursor.outward) :
    InTree root target := by
  rcases List.mem_cons.mp isOutward with rfl | isAncestor
  · exact inTree
  · exact inTree.ancestor isAncestor

theorem enclosingCall (inTree : InTree root cursor) :
    InTree root (Infer.enclosingCall cursor) := by
  unfold Infer.enclosingCall
  dsimp only
  cases found : cursor.outward.find? fun c =>
      c.kind == "call_expression" || c.kind == "new_expression" with
  | some call => exact inTree.outward (List.mem_of_find?_eq_some found)
  | none =>
    have isOutward : cursor.outward.getLastD cursor ∈ cursor.outward := by
      rw [List.getLastD_eq_getLast?, List.getLast?_eq_some_getLast (by simp [Cursor.outward])]
      exact List.getLast_mem _
    exact inTree.outward isOutward

theorem constructorOf (inTree : InTree root cursor)
    (found : Infer.constructorOf? source cursor = some target) : InTree root target := by
  obtain ⟨body, isBody, found⟩ := Option.bind_eq_some_iff.mp found
  exact (inTree.field isBody).member (List.mem_of_find?_eq_some found)

theorem heldFunction (inTree : InTree root cursor)
    (found : Infer.heldFunction? cursor = some target) : InTree root target := by
  unfold Infer.heldFunction? at found
  split at found
  · next parent isParent =>
    split at found
    · exact (inTree.parent isParent).field (Option.filter_eq_some_iff.mp found).1
    · simp at found
  · simp at found

/-- The function that a call runs stands in the same tree. -/
theorem callee (inTree : InTree root cursor)
    (found : Infer.callee? source cursor = some target) : InTree root target := by
  unfold Infer.callee? at found
  dsimp only at found
  split at found
  · simp at found
  · next declaration isDeclaration =>
    obtain ⟨name, isName, resolved⟩ := Option.bind_eq_some_iff.mp isDeclaration
    have nameInTree : InTree root name := by
      rcases Option.or_eq_some_iff.mp (Option.filter_eq_some_iff.mp isName).1 with named | ⟨_, named⟩
      · exact inTree.enclosingCall.field named
      · exact inTree.enclosingCall.field named
    have declarationInTree := nameInTree.resolved resolved
    split at found
    · split at found
      · obtain rfl := Option.some.inj found
        exact declarationInTree
      · simp at found
    · split at found
      · split at found
        · exact declarationInTree.constructorOf found
        · simp at found
      · exact declarationInTree.heldFunction found

/-! ### Literals and return statements -/

theorem patternSource (inTree : InTree root cursor)
    (found : Infer.patternSource? cursor = some target) : InTree root target := by
  unfold Infer.patternSource? at found
  split at found
  · next parent isParent =>
    split at found
    · exact (inTree.parent isParent).field found
    · simp at found
  · simp at found

end InTree

theorem InTree.returnStatement {root : Node} {cursor target : Cursor} (inTree : InTree root cursor)
    (isReturn : target ∈ Infer.returnStatements cursor) : InTree root target := by
  rw [Infer.returnStatements_eq] at isReturn
  obtain ⟨child, isChild, isGiven⟩ := List.mem_flatMap.mp isReturn
  exact (Traversal.of_mem_given (fun _ _ held _ => held.child) (inTree.child isChild) isGiven).2

/-! ## All nodes of a tree -/

mutual

/-- The cursors of a node and of all nodes below it. -/
def cursorsAt (above : List Node) : Node → List Cursor
  | .mk label children =>
    let node := Node.mk label children
    ⟨node, above⟩ :: cursorsAmong (node :: above) children

def cursorsAmong (above : List Node) : List Node → List Cursor
  | [] => []
  | node :: rest => cursorsAt above node ++ cursorsAmong above rest

end

theorem mem_cursorsAt_self (above : List Node) (node : Node) :
    ⟨node, above⟩ ∈ cursorsAt above node := by
  cases node
  exact List.mem_cons_self

theorem mem_cursorsAmong {above : List Node} {target : Cursor} {nodes : List Node} :
    target ∈ cursorsAmong above nodes ↔ ∃ node ∈ nodes, target ∈ cursorsAt above node := by
  induction nodes with
  | nil => simp [cursorsAmong]
  | cons first rest ih => simp [cursorsAmong, ih]

mutual

theorem child_mem_cursorsAt {cursor child : Cursor} {above : List Node}
    (isChild : child ∈ cursor.children) :
    {node : Node} → cursor ∈ cursorsAt above node → child ∈ cursorsAt above node
  | .mk label children, member => by
    rw [cursorsAt] at member ⊢
    refine List.mem_cons_of_mem _ ?_
    rcases List.mem_cons.mp member with rfl | below
    · obtain ⟨node, isNode, rfl⟩ := List.mem_map.mp isChild
      exact mem_cursorsAmong.mpr ⟨node, isNode, mem_cursorsAt_self _ node⟩
    · exact child_mem_cursorsAmong isChild below

theorem child_mem_cursorsAmong {cursor child : Cursor} {above : List Node}
    (isChild : child ∈ cursor.children) :
    {nodes : List Node} → cursor ∈ cursorsAmong above nodes → child ∈ cursorsAmong above nodes
  | [], member => by simp [cursorsAmong] at member
  | first :: rest, member => by
    rw [cursorsAmong, List.mem_append] at member ⊢
    exact member.imp (child_mem_cursorsAt isChild) (child_mem_cursorsAmong isChild)

end

/-- A property can be checked for a whole tree by listing its nodes. -/
theorem InTree.mem_cursorsAt {root : Node} {cursor : Cursor} (inTree : InTree root cursor) :
    cursor ∈ cursorsAt [] root := by
  induction inTree with
  | top => exact mem_cursorsAt_self [] root
  | child _ isChild ih => exact child_mem_cursorsAt isChild ih

end Tree.Cursor

end Inlay
