import Mathlib.Data.List.Perm.Subperm
import Mathlib.Logic.Relation
import Inlay.Proofs.Traversal

/-!
What ways through a tree give, in which order, and how a loop with a stack gives it.

The place of a node is the list of the indices of children that lead to it. Compared as lists,
places are in document order. What a traversal gives is listed in this order, each place once: the
walk lists the nodes that are not broken and have nothing broken above them, and the search for
return statements lists those with no function, class or return statement between them and the
body. The classes meant here are not the abstract ones, whose return statements are taken for those
of the function.

A traversal can be run as a loop, which takes the last of the nodes that wait and lets that node's
children wait in reverse, so that the first child is next. What waited before is touched only after
everything at and below the node, and so the loop gives what the recursion over the tree gives.
-/

namespace Inlay

open Inlay.Tree

/-! ## Places -/

namespace Tree.Cursor

/-- The node at a place, if there is one. -/
def follow? : Cursor → List Nat → Option Cursor
  | cursor, [] => some cursor
  | cursor, index :: place => cursor.children[index]?.bind (·.follow? place)

/-- The node is met on the way from the top to a place, the place itself excluded. -/
def Above (top : Cursor) (place : List Nat) (met : Cursor) : Prop :=
  ∃ front, front <+: place ∧ front ≠ place ∧ top.follow? front = some met

/-- The node is met on the way from the top to a place, both excluded. -/
def Between (top : Cursor) (place : List Nat) (met : Cursor) : Prop :=
  ∃ front, front ≠ [] ∧ front <+: place ∧ front ≠ place ∧ top.follow? front = some met

/-- What is found are the nodes at the places with a property, in document order and each place
once. -/
def Lists (top : Cursor) (property : List Nat → Prop) (found : List Cursor) : Prop :=
  ∃ places : List (List Nat), places.Pairwise (· < ·) ∧
    (∀ place, place ∈ places ↔ property place) ∧ places.map top.follow? = found.map some

/-- A place lies below the top, and has the property as a place of the child that leads to it. -/
def InChild (top : Cursor) (property : Cursor → List Nat → Prop) : List Nat → Prop
  | [] => False
  | index :: place => ∃ child, top.children[index]? = some child ∧ property child place

variable {top child met : Cursor} {index : Nat} {place : List Nat}

theorem follow?_cons (isChild : top.children[index]? = some child) (place : List Nat) :
    top.follow? (index :: place) = child.follow? place := by
  rw [follow?, isChild, Option.bind_some]

theorem between_cons_iff (isChild : top.children[index]? = some child) :
    top.Between (index :: place) met ↔ child.Above place met := by
  constructor
  · rintro ⟨front, longer, isFront, shorter, isMet⟩
    obtain ⟨inner, rfl, isInner⟩ := (List.prefix_cons_iff.mp isFront).resolve_left longer
    rw [follow?_cons isChild] at isMet
    exact ⟨inner, isInner, fun same => shorter (by rw [same]), isMet⟩
  · rintro ⟨inner, isInner, shorter, isMet⟩
    refine ⟨index :: inner, List.cons_ne_nil _ _, List.cons_prefix_cons.mpr ⟨rfl, isInner⟩,
      fun same => shorter (List.cons.inj same).2, ?_⟩
    rwa [follow?_cons isChild]

theorem above_cons_iff :
    top.Above (index :: place) met ↔ met = top ∨ top.Between (index :: place) met := by
  constructor
  · rintro ⟨front, isFront, shorter, isMet⟩
    by_cases start : front = []
    · subst start
      exact .inl (Option.some.inj isMet).symm
    · exact .inr ⟨front, start, isFront, shorter, isMet⟩
  · rintro (rfl | ⟨front, _, isFront, shorter, isMet⟩)
    · exact ⟨[], List.nil_prefix, (List.cons_ne_nil _ _).symm, rfl⟩
    · exact ⟨front, isFront, shorter, isMet⟩

theorem not_above_nil : ¬ top.Above [] met := by
  rintro ⟨front, isFront, shorter, _⟩
  exact shorter (List.prefix_nil.mp isFront)

/-! ### Lists of places -/

section

variable {property property' : List Nat → Prop} {found : List Cursor}

theorem Lists.congr (lists : top.Lists property found)
    (same : ∀ place, property place ↔ property' place) : top.Lists property' found := by
  obtain ⟨places, order, exact, nodes⟩ := lists
  exact ⟨places, order, fun place => (exact place).trans (same place), nodes⟩

theorem Lists.mem_iff (lists : top.Lists property found) :
    met ∈ found ↔ ∃ place, property place ∧ top.follow? place = some met := by
  obtain ⟨places, _, exact, nodes⟩ := lists
  have mapped : some met ∈ places.map top.follow? ↔ met ∈ found := by simp [nodes]
  simp only [← mapped, List.mem_map, exact]

/-- Of two properties that are listed by the same nodes, one cannot be narrower. -/
theorem Lists.narrowed_iff (lists : top.Lists property found)
    (narrower : ∀ place, property' place → property place) :
    top.Lists property' found ↔ ∀ place, property place → property' place := by
  constructor
  · rintro ⟨places', order', exact', nodes'⟩ place holds
    obtain ⟨places, order, exact, nodes⟩ := lists
    have included : places' ⊆ places := fun place isPlace =>
      (exact place).mpr (narrower place ((exact' place).mp isPlace))
    have sameLength : places.length = places'.length := by
      have counted := congrArg List.length (nodes.trans nodes'.symm)
      simpa using counted
    have distinct : places'.Nodup := by
      refine order'.imp ?_
      rintro place _ lt rfl
      exact List.lt_irrefl place lt
    have perm := (List.subperm_of_subset distinct included).perm_of_length_le
      (Nat.le_of_eq sameLength)
    exact (exact' place).mp (perm.mem_iff.mpr ((exact place).mpr holds))
  · intro same
    exact lists.congr fun place => ⟨same place, narrower place⟩

theorem Lists.nil (never : ∀ place, ¬ property place) : top.Lists property [] :=
  ⟨[], .nil, fun place => by simp [never place], rfl⟩

/-- The top comes before all that is below it. -/
theorem Lists.cons (lists : top.Lists property found) (below : ¬ property []) :
    top.Lists (fun place => place = [] ∨ property place) (top :: found) := by
  obtain ⟨places, order, exact, nodes⟩ := lists
  refine ⟨[] :: places, .cons (fun place isPlace => ?_) order, fun place => ?_, ?_⟩
  · cases place with
    | nil => exact absurd ((exact []).mp isPlace) below
    | cons index inner => exact List.nil_lt_cons index inner
  · rw [List.mem_cons, exact]
  · rw [List.map_cons, List.map_cons, nodes]
    rfl

end

section

variable {property : Cursor → List Nat → Prop} {found : Cursor → List Cursor}

/-- What is listed of each child from an index on is listed one after the other. -/
theorem lists_from : (children : List Cursor) → (index : Nat) →
    top.children.drop index = children →
    (∀ child ∈ children, child.Lists (property child) (found child)) →
    top.Lists (fun place => ∃ i inner child, index ≤ i ∧ place = i :: inner ∧
      top.children[i]? = some child ∧ property child inner) (children.flatMap found)
  | [], index, rest, _ => by
    refine .nil ?_
    rintro place ⟨i, inner, child, le, rfl, isChild, holds⟩
    have short : top.children.length ≤ index := List.drop_eq_nil_iff.mp rest
    rw [List.getElem?_eq_none (Nat.le_trans short le)] at isChild
    cases isChild
  | first :: others, index, rest, each => by
    have isFirst : top.children[index]? = some first := by
      rw [← List.head?_drop, rest, List.head?_cons]
    have later : top.children.drop (index + 1) = others := by
      rw [← List.tail_drop, rest, List.tail_cons]
    obtain ⟨here, order, exact, nodes⟩ := each first (.head _)
    obtain ⟨behind, order', exact', nodes'⟩ :=
      lists_from others (index + 1) later fun child isChild => each child (.tail _ isChild)
    refine ⟨here.map (index :: ·) ++ behind, ?_, fun place => ?_, ?_⟩
    · refine List.pairwise_append.mpr ⟨?_, order', ?_⟩
      · rw [List.pairwise_map]
        exact order.imp fun lt => List.cons_lt_cons_self.mpr lt
      · intro place isHere place' isBehind
        obtain ⟨inner, _, rfl⟩ := List.mem_map.mp isHere
        obtain ⟨i, inner', _, lt, rfl, _⟩ := (exact' place').mp isBehind
        exact List.cons_lt_cons_iff.mpr (.inl lt)
    · rw [List.mem_append, List.mem_map, exact']
      constructor
      · rintro (⟨inner, isHere, rfl⟩ | ⟨i, inner, child, lt, rfl, isChild, holds⟩)
        · exact ⟨index, inner, first, Nat.le_refl _, rfl, isFirst, (exact inner).mp isHere⟩
        · exact ⟨i, inner, child, Nat.le_of_succ_le lt, rfl, isChild, holds⟩
      · rintro ⟨i, inner, child, le, rfl, isChild, holds⟩
        rcases Nat.eq_or_lt_of_le le with rfl | lt
        · obtain rfl := Option.some.inj (isFirst.symm.trans isChild)
          exact .inl ⟨inner, (exact inner).mpr holds, rfl⟩
        · exact .inr ⟨i, inner, child, lt, rfl, isChild, holds⟩
    · have ahead : (here.map (index :: ·)).map top.follow? = here.map first.follow? := by
        rw [List.map_map]
        exact List.map_congr_left fun place _ => follow?_cons isFirst place
      rw [List.map_append, ahead, nodes, nodes', List.flatMap_cons, List.map_append]

/-- What is listed of each child is listed one after the other. -/
theorem lists_children
    (each : ∀ child ∈ top.children, child.Lists (property child) (found child)) :
    top.Lists (top.InChild property) (top.children.flatMap found) := by
  refine (lists_from top.children 0 rfl each).congr fun place => ?_
  cases place with
  | nil => simp [InChild]
  | cons index inner =>
    constructor
    · rintro ⟨_, _, child, _, same, isChild, holds⟩
      cases same
      exact ⟨child, isChild, holds⟩
    · rintro ⟨child, isChild, holds⟩
      exact ⟨index, inner, child, Nat.zero_le _, rfl, isChild, holds⟩

end

end Tree.Cursor

namespace Tree

namespace Traversal

/-! ## Loops -/

/-- A loop under way: what it has given, and the nodes that wait. The last of these is next. -/
structure Loop where
  given : List Cursor
  waiting : List Cursor

/-- One round of the loop. There is none if no node waits. -/
def round? (way : Traversal) (loop : Loop) : Option Loop :=
  loop.waiting.getLast?.map fun cursor =>
    { given := loop.given ++ if way.gives cursor then [cursor] else []
      waiting := loop.waiting.dropLast ++
        if way.enters cursor then cursor.children.reverse else [] }

/-- Any number of rounds. -/
abbrev Rounds (way : Traversal) : Loop → Loop → Prop :=
  Relation.ReflTransGen fun loop next => way.round? loop = some next

/-- The loop that begins with these nodes comes to an end, and has then given these. -/
def Ends (way : Traversal) (waiting given : List Cursor) : Prop :=
  way.Rounds ⟨[], waiting⟩ ⟨given, []⟩

variable {way : Traversal} {cursor : Cursor}

theorem round?_append (given waiting : List Cursor) (cursor : Cursor) :
    way.round? ⟨given, waiting ++ [cursor]⟩ =
      some ⟨given ++ if way.gives cursor then [cursor] else [],
        waiting ++ if way.enters cursor then cursor.children.reverse else []⟩ := by
  simp [round?]

theorem rounds_reverse {cursors : List Cursor}
    (each : ∀ cursor ∈ cursors, ∀ given waiting,
      way.Rounds ⟨given, waiting ++ [cursor]⟩ ⟨given ++ way.given cursor, waiting⟩)
    (given waiting : List Cursor) :
    way.Rounds ⟨given, waiting ++ cursors.reverse⟩
      ⟨given ++ cursors.flatMap way.given, waiting⟩ := by
  induction cursors generalizing given with
  | nil => simpa using .refl
  | cons first rest ih =>
    rw [List.reverse_cons, ← List.append_assoc, List.flatMap_cons, ← List.append_assoc]
    have front := each first (.head _) given (waiting ++ rest.reverse)
    exact front.trans (ih (fun cursor isRest => each cursor (.tail _ isRest)) _)

/-- The loop is done with a node and all below it before it comes to what waited earlier. -/
theorem rounds_given (cursor : Cursor) (given waiting : List Cursor) :
    way.Rounds ⟨given, waiting ++ [cursor]⟩ ⟨given ++ way.given cursor, waiting⟩ := by
  induction cursor using Cursor.induction generalizing given waiting with
  | step cursor ih =>
    refine .head (round?_append given waiting cursor) ?_
    rw [given_eq, ← List.append_assoc]
    by_cases entered : way.enters cursor = true
    · simp only [entered, if_true]
      exact rounds_reverse ih _ waiting
    · simp only [entered, if_false, List.append_nil, Bool.false_eq_true]
      exact .refl

/-- A loop has one end at most. -/
theorem Ends.unique {waiting given given' : List Cursor} (ends : way.Ends waiting given)
    (ends' : way.Ends waiting given') : given = given' := by
  have stuck : ∀ {given : List Cursor} {loop : Loop}, way.Rounds ⟨given, []⟩ loop →
      loop = ⟨given, []⟩ := by
    intro given loop rounds
    rcases rounds.cases_head with same | ⟨next, round, _⟩
    · exact same.symm
    · simp [round?] at round
  have functional : Relator.RightUnique fun loop next => way.round? loop = some next := by
    intro loop next next' round round'
    exact Option.some.inj (round.symm.trans round')
  rcases ends.total_of_right_unique functional ends' with rounds | rounds
  · exact (congrArg Loop.given (stuck rounds)).symm
  · exact congrArg Loop.given (stuck rounds)

/-- The loop comes to an end whatever nodes it begins with, and gives what is given at and below
them. -/
theorem ends_reverse_iff {cursors given : List Cursor} :
    way.Ends cursors.reverse given ↔ given = cursors.flatMap way.given := by
  have ends : way.Ends cursors.reverse (cursors.flatMap way.given) :=
    rounds_reverse (fun cursor _ => rounds_given cursor) [] []
  constructor
  · intro ends'
    exact Ends.unique ends' ends
  · rintro rfl
    exact ends

/-! ## What is given where -/

/-- A place is given: the node there is, and all nodes above it are entered. -/
def Admits (way : Traversal) : Cursor → List Nat → Prop
  | cursor, [] => way.gives cursor = true
  | cursor, index :: place =>
    way.enters cursor = true ∧
      ∃ child, cursor.children[index]? = some child ∧ way.Admits child place

/-- A traversal lists the places that it admits. -/
theorem lists_given (cursor : Cursor) : cursor.Lists (way.Admits cursor) (way.given cursor) := by
  induction cursor using Cursor.induction with
  | step cursor ih =>
    have below : cursor.Lists (fun place => way.enters cursor = true ∧
        cursor.InChild way.Admits place)
        (if way.enters cursor then cursor.children.flatMap way.given else []) := by
      split
      · next entered => exact (Cursor.lists_children ih).congr fun place => by simp [entered]
      · next passed => exact .nil fun place => by simp [passed]
    rw [given_eq]
    split
    · next gives =>
      refine (below.cons (by simp [Cursor.InChild])).congr fun place => ?_
      cases place with
      | nil => simp [Admits, gives]
      | cons index inner => simp [Admits, Cursor.InChild]
    · next withholds =>
      refine below.congr fun place => ?_
      cases place with
      | nil => simp [Admits, Cursor.InChild, withholds]
      | cons index inner => simp [Admits, Cursor.InChild]

theorem admits_iff {place : List Nat} : way.Admits cursor place ↔
    (∃ target, cursor.follow? place = some target ∧ way.gives target = true) ∧
      ∀ met, cursor.Above place met → way.enters met = true := by
  induction place generalizing cursor with
  | nil => simp [Admits, Cursor.follow?, Cursor.not_above_nil]
  | cons index place ih =>
    constructor
    · rintro ⟨entered, child, isChild, admits⟩
      obtain ⟨target, enters⟩ := ih.mp admits
      refine ⟨by rwa [Cursor.follow?_cons isChild], fun met above => ?_⟩
      rcases Cursor.above_cons_iff.mp above with rfl | between
      · exact entered
      · exact enters met ((Cursor.between_cons_iff isChild).mp between)
    · rintro ⟨⟨target, isTarget, gives⟩, enters⟩
      obtain ⟨child, isChild, isTarget⟩ := Option.bind_eq_some_iff.mp isTarget
      refine ⟨enters cursor (Cursor.above_cons_iff.mpr (.inl rfl)), child, isChild, ?_⟩
      refine ih.mpr ⟨⟨target, isTarget, gives⟩, fun met above => enters met ?_⟩
      exact Cursor.above_cons_iff.mpr (.inr ((Cursor.between_cons_iff isChild).mpr above))

/-- Below a node that is entered in any case, what counts is met in between. -/
theorem inChild_admits_iff {place : List Nat} : cursor.InChild way.Admits place ↔
    place ≠ [] ∧ (∃ target, cursor.follow? place = some target ∧ way.gives target = true) ∧
      ∀ met, cursor.Between place met → way.enters met = true := by
  cases place with
  | nil => simp [Cursor.InChild]
  | cons index inner =>
    constructor
    · rintro ⟨child, isChild, admits⟩
      obtain ⟨target, enters⟩ := admits_iff.mp admits
      refine ⟨List.cons_ne_nil _ _, by rwa [Cursor.follow?_cons isChild], fun met between => ?_⟩
      exact enters met ((Cursor.between_cons_iff isChild).mp between)
    · rintro ⟨_, ⟨target, isTarget, gives⟩, enters⟩
      obtain ⟨child, isChild, isTarget⟩ := Option.bind_eq_some_iff.mp isTarget
      refine ⟨child, isChild, admits_iff.mpr ⟨⟨target, isTarget, gives⟩, fun met above => ?_⟩⟩
      exact enters met ((Cursor.between_cons_iff isChild).mpr above)

end Traversal

namespace Cursor

/-- The node at a place is not broken, and no node above it is. -/
def Unbroken (top : Cursor) (place : List Nat) : Prop :=
  (∃ target, top.follow? place = some target ∧ target.node.isBroken = false) ∧
    ∀ met, top.Above place met → met.node.isBroken = false

theorem lists_walk (top : Cursor) : top.Lists top.Unbroken top.walk := by
  rw [walk_eq_given]
  refine (Traversal.lists_given top).congr fun place => ?_
  simp [Traversal.admits_iff, Traversal.unbroken, Unbroken]

end Cursor

end Tree

/-! ## Return statements -/

namespace Infer

/-- Return statements below the node are not those of a function around it. -/
def Separates (cursor : Cursor) : Prop :=
  StopsAt cursor ∨ cursor.kind = "abstract_class_declaration"

/-- A return statement below a body, with nothing in between that bars it. -/
def ReturnOf (bars : Cursor → Prop) (body : Cursor) (place : List Nat) : Prop :=
  place ≠ [] ∧
    (∃ statement, body.follow? place = some statement ∧ statement.kind = "return_statement") ∧
    ∀ met, body.Between place met → ¬ bars met

theorem returnOf_stopsAt_iff {body : Cursor} {place : List Nat} :
    ReturnOf StopsAt body place ↔ body.InChild ownReturns.Admits place := by
  simp [Traversal.inChild_admits_iff, ownReturns, ReturnOf]

theorem lists_returnStatements (body : Cursor) :
    body.Lists (ReturnOf StopsAt body) (returnStatements body) := by
  rw [returnStatements_eq]
  refine (Cursor.lists_children fun child _ => Traversal.lists_given child).congr fun place => ?_
  exact returnOf_stopsAt_iff.symm

theorem ReturnOf.stopsAt {body : Cursor} {place : List Nat}
    (isReturn : ReturnOf Separates body place) : ReturnOf StopsAt body place :=
  ⟨isReturn.1, isReturn.2.1, fun met between stops => isReturn.2.2 met between (.inl stops)⟩

/-- Return statements that are found belong to the function exactly if none of them stands in an
abstract class. -/
theorem lists_separate_iff (body : Cursor) :
    body.Lists (ReturnOf Separates body) (returnStatements body) ↔
      ∀ place, ReturnOf StopsAt body place →
        ∀ met, body.Between place met → met.kind ≠ "abstract_class_declaration" := by
  rw [(lists_returnStatements body).narrowed_iff fun _ => ReturnOf.stopsAt]
  refine forall₂_congr fun place isReturn => ?_
  constructor
  · intro separate met between isAbstract
    exact separate.2.2 met between (.inr isAbstract)
  · rintro concrete
    refine ⟨isReturn.1, isReturn.2.1, fun met between => ?_⟩
    rintro (stops | isAbstract)
    · exact isReturn.2.2 met between stops
    · exact concrete met between isAbstract

/-! ### What a function returns -/

theorem mapM_congr {α β : Type} {items : List α} {f g : α → Option β}
    (same : ∀ item ∈ items, f item = g item) : items.mapM f = items.mapM g := by
  induction items with
  | nil => rfl
  | cons first rest ih =>
    rw [List.mapM_cons, List.mapM_cons, same first (.head _),
      ih fun item isRest => same item (.tail _ isRest)]

/-- What a function returns depends on nothing but the values of the return statements that are
found. -/
theorem returnType_congr {source : Source} {first second : Answers} {function body : Cursor}
    (isBody : function.field? "body" = some body) (isBlock : body.kind = "statement_block")
    (agree : ∀ statement ∈ returnStatements body, ∀ value, statement.members.head? = some value →
      first.expression value = second.expression value) :
    returnType source first function = returnType source second function := by
  have same : returnedByStatements first (returnStatements body) =
      returnedByStatements second (returnStatements body) := by
    refine congrArg (Option.map _) (mapM_congr fun statement isReturn => ?_)
    have agree := agree statement isReturn
    cases members : statement.members with
    | nil => rfl
    | cons value rest => exact agree value (by rw [members, List.head?_cons])
  simp only [returnType, isBody, isBlock, beq_self_eq_true, if_true, same]

/-- The two loops with a stack come to an end and give what the recursions over the tree give, in
document order and each place once. The walk gives the nodes that are neither broken nor below a
broken node. The search in a body gives its return statements with no function, class or other
return statement in between, and these alone tell what the function returns. It gives just those
that belong to the function exactly if none of them stands in an abstract class. -/
theorem stack_loops_list_in_order (top body : Cursor) :
    (∀ given, Traversal.unbroken.Ends [top] given ↔ given = top.walk) ∧
    top.Lists top.Unbroken top.walk ∧
    (∀ given, ownReturns.Ends body.children.reverse given ↔ given = returnStatements body) ∧
    body.Lists (ReturnOf StopsAt body) (returnStatements body) ∧
    (body.Lists (ReturnOf Separates body) (returnStatements body) ↔
      ∀ place, ReturnOf StopsAt body place →
        ∀ met, body.Between place met → met.kind ≠ "abstract_class_declaration") ∧
    ∀ (source : Source) (first second : Answers) (function : Cursor),
      function.field? "body" = some body → body.kind = "statement_block" →
      (∀ place statement value, ReturnOf StopsAt body place → body.follow? place = some statement →
        statement.members.head? = some value →
          first.expression value = second.expression value) →
      returnType source first function = returnType source second function := by
  refine ⟨fun given => ?_, Cursor.lists_walk top, fun given => ?_, lists_returnStatements body,
    lists_separate_iff body, ?_⟩
  · have ends : Traversal.unbroken.Ends [top].reverse given ↔ _ := Traversal.ends_reverse_iff
    rwa [List.reverse_singleton, List.flatMap_singleton, ← Cursor.walk_eq_given] at ends
  · rw [returnStatements_eq]
    exact Traversal.ends_reverse_iff
  · intro source first second function isBody isBlock agree
    refine returnType_congr isBody isBlock fun statement isReturn value isValue => ?_
    obtain ⟨place, isPlace, found⟩ := (lists_returnStatements body).mem_iff.mp isReturn
    exact agree place statement value isPlace found isValue

/-- A function holds another one that returns a truth value, and returns a number itself. Whatever
is told of that value, the function returns a number. -/
theorem nested_return_is_left_out :
    let node := fun kind start stop fields children =>
      Node.mk ⟨kind, true, false, false, false, start, stop, fields⟩ children
    let nested := node "return_statement" 33 45 [] [node "true" 40 44 [] []]
    let arrow := node "arrow_function" 25 47 ["value"]
      [node "formal_parameters" 25 27 ["parameters"] [],
        node "statement_block" 31 47 ["body"] [nested]]
    let declaration := node "lexical_declaration" 15 48 []
      [node "variable_declarator" 21 47 [] [node "identifier" 21 22 ["name"] [], arrow]]
    let own := node "return_statement" 49 58 [] [node "number" 56 57 [] []]
    let body := node "statement_block" 13 60 ["body"] [declaration, own]
    let function := node "function_declaration" 0 60 []
      [node "identifier" 9 10 ["name"] [], node "formal_parameters" 10 12 ["parameters"] [], body]
    let root := node "program" 0 60 [] [function]
    let source : Source :=
      ⟨"a.ts", "function f() { const g = () => { return true; }; return 1; }", .typescript, root, 0⟩
    let told := answers source 8
    let withheld : Answers :=
      { told with expression := fun cursor =>
          if cursor.start = 40 then none else told.expression cursor }
    returnStatements ⟨body, [function, root]⟩ = [⟨own, [body, function, root]⟩] ∧
      returnType source told ⟨function, [root]⟩ = some "number" ∧
      returnType source withheld ⟨function, [root]⟩ =
        returnType source told ⟨function, [root]⟩ := by
  intro node nested arrow declaration own body function root source told withheld
  have listed : returnStatements ⟨body, [function, root]⟩ = [⟨own, [body, function, root]⟩] := rfl
  have all := stack_loops_list_in_order ⟨root, []⟩ ⟨body, [function, root]⟩
  refine ⟨listed, by decide, all.2.2.2.2.2 source withheld told ⟨function, [root]⟩ rfl rfl ?_⟩
  intro place statement value isReturn found isValue
  have isOwn : statement ∈ returnStatements ⟨body, [function, root]⟩ :=
    (lists_returnStatements _).mem_iff.mpr ⟨place, isReturn, found⟩
  rw [listed, List.mem_singleton] at isOwn
  subst isOwn
  obtain rfl := Option.some.inj isValue
  rfl

/-- A static block of an abstract class returns a number. The function around the class is taken to
return it, although the class separates the two. -/
theorem abstract_class_return_is_counted :
    let node := fun kind start stop fields children =>
      Node.mk ⟨kind, true, false, false, false, start, stop, fields⟩ children
    let result := node "return_statement" 43 52 [] [node "number" 50 51 [] []]
    let inner := node "statement_block" 41 54 ["body"] [result]
    let block := node "class_static_block" 34 54 [] [inner]
    let members := node "class_body" 32 56 ["body"] [block]
    let outer := node "abstract_class_declaration" 15 56 []
      [node "type_identifier" 30 31 ["name"] [], members]
    let body := node "statement_block" 13 58 ["body"] [outer]
    let function := node "function_declaration" 0 58 []
      [node "identifier" 9 10 ["name"] [], node "formal_parameters" 10 12 ["parameters"] [], body]
    let root := node "program" 0 58 [] [function]
    let source : Source :=
      ⟨"a.ts", "function f() { abstract class A { static { return 1; } } }", .typescript, root, 0⟩
    let here : Cursor := ⟨body, [function, root]⟩
    (atDepth source 0).returned ⟨function, [root]⟩ = some "number" ∧
      returnStatements here = [⟨result, [inner, block, members, outer, body, function, root]⟩] ∧
      ¬ here.Lists (ReturnOf Separates here) (returnStatements here) := by
  intro node result inner block members outer body function root source here
  refine ⟨by decide, rfl, ?_⟩
  rw [lists_separate_iff]
  intro concrete
  have isReturn : ReturnOf StopsAt here [0, 1, 0, 0, 0] := by
    rw [returnOf_stopsAt_iff]
    exact ⟨_, rfl, by decide, _, rfl, by decide, _, rfl, by decide, _, rfl, by decide, _, rfl, rfl⟩
  have between : here.Between [0, 1, 0, 0, 0] ⟨outer, [body, function, root]⟩ :=
    ⟨[0], by decide, by decide, by decide, rfl⟩
  exact concrete _ isReturn _ between rfl

end Infer

end Inlay
