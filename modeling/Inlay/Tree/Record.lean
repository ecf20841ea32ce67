import Inlay.Json.Value
import Inlay.Tree.Node

/-!
Trees in JSON: a list of nodes in pre-order. A node is a list of its kind, its flags, its first
byte, the byte after its last, the index of its parent, and the names of the fields under which
the parent has it. The root has the parent -1. The flags add up: 1 for a named node, 2 for an
error, 4 for a missing node and 8 for a node with an error in it.
-/

namespace Inlay.Tree

/-- A node and the index of its parent. -/
def record? : Json → Option (Label × Option Nat)
  | .list (.text kind :: .int flags :: .int start :: .int stop :: .int parent :: fields) =>
    let flags := flags.toNat
    some
      ({ kind
         named := flags.testBit 0
         isError := flags.testBit 1
         missing := flags.testBit 2
         hasError := flags.testBit 3
         start := start.toNat
         stop := stop.toNat
         fields := fields.filterMap fieldName? },
       if parent < 0 then none else some parent.toNat)
  | _ => none
where
  fieldName? : Json → Option String
    | .text name => some name
    | _ => none

/-- The tree of a list of nodes. -/
def Node.ofJson? : Json → Option Node
  | .list items => (items.mapM record?).bind Node.ofRecords?
  | _ => none

end Inlay.Tree
