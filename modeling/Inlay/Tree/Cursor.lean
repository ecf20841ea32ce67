import Inlay.Tree.Node

/-!
Nodes together with the way up to the root, so that a node's parent can be asked for.

Besides the steps to parents and children there are two ways through a tree. `walk` visits a tree
in pre-order and leaves out broken nodes with all that is below them. `covering` finds the
smallest node that covers a range of bytes.
-/

namespace Inlay.Tree

/-- A node and its ancestors, the nearest first. -/
structure Cursor where
  node : Node
  above : List Node

namespace Cursor

def kind (cursor : Cursor) : String := cursor.node.kind

def start (cursor : Cursor) : Nat := cursor.node.start

def stop (cursor : Cursor) : Nat := cursor.node.stop

def isNamed (cursor : Cursor) : Bool := cursor.node.label.named

/-- The root of a tree. -/
def top (root : Node) : Cursor := ⟨root, []⟩

/-- The cursors of a list of ancestors, the nearest first. -/
def ofAncestors : List Node → List Cursor
  | [] => []
  | node :: above => ⟨node, above⟩ :: ofAncestors above

def ancestors (cursor : Cursor) : List Cursor := ofAncestors cursor.above

def parent? (cursor : Cursor) : Option Cursor := cursor.ancestors.head?

/-- The node and its ancestors, from the node outward. -/
def outward (cursor : Cursor) : List Cursor := cursor :: cursor.ancestors

def children (cursor : Cursor) : List Cursor :=
  cursor.node.children.map fun child => ⟨child, cursor.node :: cursor.above⟩

/-- The named children that are not comments. -/
def members (cursor : Cursor) : List Cursor :=
  cursor.children.filter fun child => child.isNamed && child.kind != "comment"

/-- The child with a field name. If there are several it is the last. -/
def field? (cursor : Cursor) (name : String) : Option Cursor :=
  cursor.children.reverse.find? fun child => child.node.label.fields.contains name

/-- Whether there is a token of this text among the children. -/
def hasToken (cursor : Cursor) (token : String) : Bool :=
  cursor.children.any fun child => !child.isNamed && child.kind == token

/-- Whether the two cover the same bytes. -/
def sameExtent (a b : Cursor) : Bool := a.start == b.start && a.stop == b.stop

/-- Whether the node is the named field of the given parent, as far as extents tell. -/
def isFieldOf (cursor parent : Cursor) (name : String) : Bool :=
  (parent.field? name).any (·.sameExtent cursor)

end Cursor

mutual

/-- The unbroken nodes of a tree in pre-order, without what is below broken ones. -/
def walkNode (above : List Node) : Node → List Cursor
  | .mk label children =>
    let node := Node.mk label children
    if node.isBroken then [] else ⟨node, above⟩ :: walkList (node :: above) children

def walkList (above : List Node) : List Node → List Cursor
  | [] => []
  | node :: rest => walkNode above node ++ walkList above rest

end

def Cursor.walk (cursor : Cursor) : List Cursor := walkNode cursor.above cursor.node

/-- Looks for a node of a tree by a range of bytes, as the parser's own trees can. -/
abbrev Search := Node → (start stop : Nat) → Option Cursor

/-- Whether a child cannot cover the range, so that the search goes past it. -/
def passes (start stop : Nat) (child : Node) : Bool :=
  child.stop < stop ||
    if child.start == child.stop then child.stop < start else child.stop ≤ start

mutual

/-- The smallest node below or at the given one that covers the range. -/
def coveringNode (start stop : Nat) (above : List Node) : Node → Cursor
  | .mk label children =>
    let node := Node.mk label children
    coveringList start stop ⟨node, above⟩ (node :: above) children

/-- The same among the children of `here`, which is the answer if none of them covers the range. -/
def coveringList (start stop : Nat) (here : Cursor) (above : List Node) : List Node → Cursor
  | [] => here
  | child :: rest =>
    if passes start stop child then coveringList start stop here above rest
    else if start < child.start then here
    else coveringNode start stop above child

end

/-- The smallest node of a tree that covers the range, the root if none does. A range that ends
before it starts has none. -/
def covering? : Search := fun root start stop =>
  if stop < start then none else some (coveringNode start stop [] root)

end Inlay.Tree
