import Inlay.Infer.Local

/-!
Ways through a tree, which give some nodes and go on below some.

The walk to the unbroken nodes and the search for the return statements of a function are two of
them. What nodes pass on to their children whenever the way goes on holds wherever it comes.
-/

namespace Inlay

open Inlay.Tree

namespace Tree

namespace Cursor

/-- What every cursor has if its children have it, all cursors have. -/
theorem induction {motive : Cursor → Prop}
    (step : ∀ cursor, (∀ child ∈ cursor.children, motive child) → motive cursor)
    (cursor : Cursor) : motive cursor :=
  onNode cursor.node cursor.above
where
  onNode : (node : Node) → (above : List Node) → motive ⟨node, above⟩
    | .mk label children, above => by
      refine step _ fun child isChild => ?_
      obtain ⟨inner, isInner, rfl⟩ := List.mem_map.mp isChild
      have isInner : inner ∈ children := isInner
      exact onNode inner _

/-- What is put together from nodes one by one is put together from their cursors. -/
theorem eq_flatMap_cursors {above : List Node} (found : List Node → List Cursor)
    (each : Cursor → List Cursor) (nil : found [] = [])
    (cons : ∀ node rest, found (node :: rest) = each ⟨node, above⟩ ++ found rest)
    (nodes : List Node) :
    found nodes = (nodes.map fun node => (⟨node, above⟩ : Cursor)).flatMap each := by
  induction nodes with
  | nil => exact nil
  | cons first rest ih => rw [cons, ih, List.map_cons, List.flatMap_cons]

end Cursor

/-- Which nodes are given on a way through a tree, and below which of them it goes on. -/
structure Traversal where
  gives : Cursor → Bool
  enters : Cursor → Bool

namespace Traversal

mutual

def atNode (way : Traversal) (above : List Node) : Node → List Cursor
  | .mk label children =>
    let node := Node.mk label children
    let cursor : Cursor := ⟨node, above⟩
    (if way.gives cursor then [cursor] else []) ++
      if way.enters cursor then way.amongNodes (node :: above) children else []

def amongNodes (way : Traversal) (above : List Node) : List Node → List Cursor
  | [] => []
  | node :: rest => way.atNode above node ++ way.amongNodes above rest

end

/-- What is given at and below a node. -/
def given (way : Traversal) (cursor : Cursor) : List Cursor := way.atNode cursor.above cursor.node

variable {way : Traversal} {cursor target : Cursor}

theorem given_eq (way : Traversal) (cursor : Cursor) :
    way.given cursor = (if way.gives cursor then [cursor] else []) ++
      if way.enters cursor then cursor.children.flatMap way.given else [] := by
  obtain ⟨⟨label, children⟩, above⟩ := cursor
  have below := Cursor.eq_flatMap_cursors (way.amongNodes (.mk label children :: above)) way.given
    (by rw [amongNodes]) (fun _ _ => by rw [amongNodes]; rfl) children
  rw [given, atNode, below]
  rfl

/-- A traversal comes only to nodes with what is passed on where it goes on below a node. -/
theorem of_mem_given {holds : Cursor → Prop}
    (passes : ∀ outer child, holds outer → way.enters outer = true → child ∈ outer.children →
      holds child)
    (held : holds cursor) (isGiven : target ∈ way.given cursor) :
    way.gives target = true ∧ holds target := by
  induction cursor using Cursor.induction with
  | step cursor ih =>
    rw [given_eq, List.mem_append] at isGiven
    rcases isGiven with here | below
    · split at here
      · next gives =>
        obtain rfl := List.mem_singleton.mp here
        exact ⟨gives, held⟩
      · simp at here
    · split at below
      · next entered =>
        obtain ⟨child, isChild, isGiven⟩ := List.mem_flatMap.mp below
        exact ih child isChild (passes cursor child held entered isChild) isGiven
      · simp at below

end Traversal

/-! ## Unbroken nodes -/

/-- The traversal of the nodes that are not broken. -/
def Traversal.unbroken : Traversal where
  gives cursor := !cursor.node.isBroken
  enters cursor := !cursor.node.isBroken

namespace Cursor

theorem walk_eq (cursor : Cursor) :
    cursor.walk = if cursor.node.isBroken then [] else cursor :: cursor.children.flatMap walk := by
  obtain ⟨⟨label, children⟩, above⟩ := cursor
  have below := eq_flatMap_cursors (walkList (.mk label children :: above)) walk
    (by rw [walkList]) (fun _ _ => by rw [walkList]; rfl) children
  rw [walk, walkNode, below]
  rfl

theorem walk_eq_given (cursor : Cursor) : cursor.walk = Traversal.unbroken.given cursor := by
  induction cursor using Cursor.induction with
  | step cursor ih =>
    have below : cursor.children.flatMap walk =
        cursor.children.flatMap Traversal.unbroken.given := by
      rw [List.flatMap_def, List.flatMap_def, List.map_congr_left ih]
    rw [walk_eq, Traversal.given_eq, below]
    cases broken : cursor.node.isBroken <;> simp [Traversal.unbroken, broken]

end Cursor

end Tree

/-! ## Return statements -/

namespace Infer

/-- The search for the return statements of a function does not go on below the node. -/
def StopsAt (cursor : Cursor) : Prop :=
  cursor.kind = "return_statement" ∨ cursor.isFunction = true ∨ isClass cursor = true

instance (cursor : Cursor) : Decidable (StopsAt cursor) := inferInstanceAs (Decidable (_ ∨ _))

/-- The traversal of the return statements of a function. -/
def ownReturns : Traversal where
  gives cursor := cursor.kind == "return_statement"
  enters cursor := !decide (StopsAt cursor)

theorem returnsAmong_eq (above nodes : List Node) :
    returnsAmong above nodes = (nodes.map fun node => (⟨node, above⟩ : Cursor)).flatMap fun child =>
      returnsAt child.above child.node :=
  Cursor.eq_flatMap_cursors (returnsAmong above) _ (by rw [returnsAmong])
    (fun _ _ => by rw [returnsAmong]) nodes

theorem returnsAt_eq_given (cursor : Cursor) :
    returnsAt cursor.above cursor.node = ownReturns.given cursor := by
  induction cursor using Cursor.induction with
  | step cursor ih =>
    have below : cursor.children.flatMap ownReturns.given =
        cursor.children.flatMap fun child => returnsAt child.above child.node := by
      rw [List.flatMap_def, List.flatMap_def, List.map_congr_left ih]
    rw [Traversal.given_eq, below]
    obtain ⟨⟨label, children⟩, above⟩ := cursor
    rw [returnsAt, returnsAmong_eq]
    dsimp only [ownReturns, Cursor.children, Node.children]
    by_cases isReturn : Cursor.kind ⟨.mk label children, above⟩ = "return_statement"
    · simp [isReturn, StopsAt]
    · by_cases stops : Cursor.isFunction ⟨.mk label children, above⟩ ∨
          isClass ⟨.mk label children, above⟩
      · simp [isReturn, StopsAt, stops]
      · simp [isReturn, StopsAt, stops]

theorem returnStatements_eq (body : Cursor) :
    returnStatements body = body.children.flatMap ownReturns.given := by
  rw [returnStatements, returnsAmong_eq, ← funext returnsAt_eq_given]
  rfl

end Infer

end Inlay
