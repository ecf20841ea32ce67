/-!
Syntax trees of source files, as a parser gives them.

A node has a kind, flags, an extent in bytes of the source and children in order. Some children
are reached by the name of a field. Trees arrive as lists of nodes in pre-order, each with the
index of its parent.
-/

namespace Inlay.Tree

/-- What a node is, its children apart. `fields` are the names under which its parent has it. -/
structure Label where
  kind : String
  named : Bool
  isError : Bool
  missing : Bool
  hasError : Bool
  start : Nat
  stop : Nat
  fields : List String
  deriving DecidableEq, Repr

inductive Node
  | mk (label : Label) (children : List Node)

namespace Node

def label : Node → Label
  | mk label _ => label

def children : Node → List Node
  | mk _ children => children

def kind (node : Node) : String := node.label.kind

def start (node : Node) : Nat := node.label.start

def stop (node : Node) : Nat := node.label.stop

/-- Whether the parser gave up on this node or made it up. -/
def isBroken (node : Node) : Bool := node.label.isError || node.label.missing

/-- Puts one more record in front of the subtrees that are still without a parent. Those that name
its index become its children. -/
def adopt (record : (Label × Option Nat) × Nat) (orphans : List (Option Nat × Node)) :
    List (Option Nat × Node) :=
  let ((label, parent), index) := record
  let (own, others) := orphans.partition (·.1 == some index)
  (parent, .mk label (own.map (·.2))) :: others

/-- The tree of a list of nodes in which parents come before their children. -/
def ofRecords? (records : List (Label × Option Nat)) : Option Node :=
  match records.zipIdx.foldr adopt [] with
  | [(none, root)] => some root
  | _ => none

end Node

end Inlay.Tree
