import Inlay.Build.Plan
import Inlay.Proofs.ByteOffset
import Inlay.Proofs.Navigation

/-!
Where the questions about a file point.

Every question belongs to a node of the tree, which lies below the one that the walk had reached.
In a tree whose nodes begin and end between characters the range of such a node has its start not
behind its end, and both are positions of the text.
-/

namespace Inlay

open Inlay.Text Inlay.Tree

/-! ## Nodes below a node -/

namespace Tree.Node

mutual

/-- All nodes of a tree in pre-order, broken ones too. -/
def subtrees : Node → List Node
  | .mk label children => .mk label children :: subtreesOfAll children

def subtreesOfAll : List Node → List Node
  | [] => []
  | node :: rest => node.subtrees ++ subtreesOfAll rest

end

theorem mem_subtrees_mk {label : Label} {children : List Node} {node : Node} :
    node ∈ (mk label children).subtrees ↔
      node = mk label children ∨ node ∈ subtreesOfAll children := by
  rw [subtrees, List.mem_cons]

theorem mem_subtreesOfAll {nodes : List Node} {node : Node} :
    node ∈ subtreesOfAll nodes ↔ ∃ outer ∈ nodes, node ∈ outer.subtrees := by
  induction nodes with
  | nil => simp [subtreesOfAll]
  | cons first rest ih => simp [subtreesOfAll, ih]

theorem mem_subtrees_self (node : Node) : node ∈ node.subtrees := by
  cases node
  exact mem_subtrees_mk.mpr (.inl rfl)

theorem mem_subtrees_of_mem_children {node child : Node} (isChild : child ∈ node.children) :
    child ∈ node.subtrees := by
  cases node
  rw [mem_subtrees_mk, mem_subtreesOfAll]
  exact .inr ⟨child, isChild, mem_subtrees_self child⟩

mutual

theorem mem_subtrees_trans {inner node : Node} (below : inner ∈ node.subtrees) :
    {outer : Node} → node ∈ outer.subtrees → inner ∈ outer.subtrees
  | .mk label children, member => by
    rcases mem_subtrees_mk.mp member with rfl | deeper
    · exact below
    · exact mem_subtrees_mk.mpr (.inr (mem_subtreesOfAll_trans below deeper))

theorem mem_subtreesOfAll_trans {inner node : Node} (below : inner ∈ node.subtrees) :
    {nodes : List Node} → node ∈ subtreesOfAll nodes → inner ∈ subtreesOfAll nodes
  | [], member => by simp [subtreesOfAll] at member
  | first :: rest, member => by
    rw [subtreesOfAll, List.mem_append] at member ⊢
    exact member.imp (mem_subtrees_trans below) (mem_subtreesOfAll_trans below)

end

end Tree.Node

namespace Tree.Cursor

/-- The node of a cursor is that of another or lies below it. -/
def Within (cursor outer : Cursor) : Prop := cursor.node ∈ outer.node.subtrees

theorem within_self (cursor : Cursor) : cursor.Within cursor := Node.mem_subtrees_self _

theorem inherited_within (outer : Cursor) : Inherited (·.Within outer) := by
  intro cursor child within isChild
  obtain ⟨node, member, rfl⟩ := List.mem_map.mp isChild
  exact Node.mem_subtrees_trans (Node.mem_subtrees_of_mem_children member) within

end Tree.Cursor

/-! ## Questions -/

namespace Plan

/-- A question that a construct gives rise to belongs to a node, which its label is attached to. -/
inductive Anchors (source : Source) (construct : Cursor) : Ask → Cursor → Prop
  /-- The name of a variable or class field. -/
  | name {shape : Shape} {target : Cursor} (isName : construct.fieldName? = some target) :
      Anchors source construct (askType source shape target) target
  | parameter {shape : Shape} {parameter : Cursor}
      (isParameter : parameter ∈ construct.parameters) :
      Anchors source construct (askType source shape parameter.binding) parameter.binding
  /-- The parameters, behind which the type that a function returns is shown. -/
  | parameters {ask : Ask} {target : Cursor}
      (isList : (construct.field? "parameter").or (construct.field? "parameters") = some target)
      (asked : ask.query.kind = .returnType)
      (start : ask.start = source.startOf target) (stop : ask.stop = source.stopOf target) :
      Anchors source construct ask target
  /-- What a member of a pattern binds. -/
  | bound {shape : Shape} {member target : Cursor} (isMember : member ∈ construct.members)
      (binds : objectPatternBinding? member = some target ∨
        arrayPatternBinding? member = some target) :
      Anchors source construct (askType source shape target) target
  /-- The value of a member of an object. -/
  | value {shape : Shape} {member target : Cursor} (isMember : member ∈ construct.members)
      (isValue : member.field? "value" = some target) :
      Anchors source construct (askType source shape target) target
  | shorthand {shape : Shape} {member : Cursor} (isMember : member ∈ construct.members) :
      Anchors source construct (askType source shape member) member
  | argument {arguments argument : Cursor} {index : Nat}
      (isList : construct.field? "arguments" = some arguments)
      (isArgument : argument ∈ arguments.members) :
      Anchors source construct (askArgument source construct argument index) argument

/-- Every question of the site belongs to a node. -/
def Anchored (source : Source) (construct : Cursor) (site : Site) : Prop :=
  ∀ ask ∈ site, ∃ target, Anchors source construct ask target

section

variable {source : Source} {features : Features} {cursor target : Cursor} {ask : Ask}

theorem Anchors.start_eq (anchors : Anchors source cursor ask target) :
    ask.start = source.startOf target := by
  cases anchors with
  | parameters _ _ start _ => exact start
  | name | parameter | bound | value | shorthand | argument => rfl

theorem Anchors.stop_eq (anchors : Anchors source cursor ask target) :
    ask.stop = source.stopOf target := by
  cases anchors with
  | parameters _ _ _ stop => exact stop
  | name | parameter | bound | value | shorthand | argument => rfl

/-- What a construct passes on to its children reaches the nodes that it asks about. -/
theorem Anchors.inherits {holds : Cursor → Prop} (inherited : Cursor.Inherited holds)
    (held : holds cursor) (anchors : Anchors source cursor ask target) : holds target := by
  have ofBinding : ∀ member ∈ cursor.members, ∀ name, member.field? name = some target →
      holds target := fun member isMember name isField =>
    inherited.field (inherited.member held isMember) isField
  have ofMember : ∀ member ∈ cursor.members, some member = some target → holds target := by
    intro member isMember same
    obtain rfl := Option.some.inj same
    exact inherited.member held isMember
  cases anchors with
  | name isName =>
    rcases Option.or_eq_some_iff.mp isName with isName | ⟨_, isName⟩
    · exact inherited.field held isName
    · exact inherited.field held isName
  | parameter isParameter => exact inherited.binding (inherited.parameter held isParameter)
  | parameters isList _ _ _ =>
    rcases Option.or_eq_some_iff.mp isList with isList | ⟨_, isList⟩
    · exact inherited.field held isList
    · exact inherited.field held isList
  | @bound _ member _ isMember binds =>
    rcases binds with binds | binds
    · unfold objectPatternBinding? at binds
      split at binds
      · exact ofMember member isMember binds
      split at binds
      · exact ofBinding member isMember _ (Option.filter_eq_some_iff.mp binds).1
      split at binds
      · exact ofBinding member isMember _ (Option.filter_eq_some_iff.mp binds).1
      · simp at binds
    · obtain ⟨found, _⟩ := Option.filter_eq_some_iff.mp binds
      split at found
      · exact ofBinding member isMember _ found
      · exact ofMember member isMember found
  | value isMember isValue => exact ofBinding _ isMember _ isValue
  | shorthand isMember => exact inherited.member held isMember
  | argument isList isArgument => exact inherited.member (inherited.field held isList) isArgument

theorem anchored_nil : Anchored source cursor [] := by simp [Anchored]

theorem anchored_ite {condition : Prop} [Decidable condition] {site : Site}
    (anchored : Anchored source cursor site) :
    Anchored source cursor (if condition then site else []) := by
  split
  · exact anchored
  · exact anchored_nil

theorem anchored_singleton (anchors : Anchors source cursor ask target) :
    Anchored source cursor [ask] := by
  intro other member
  obtain rfl := List.mem_singleton.mp member
  exact ⟨target, anchors⟩

theorem anchored_map {targets : List Cursor} (shape : Shape)
    (each : ∀ target ∈ targets, Anchors source cursor (askType source shape target) target) :
    Anchored source cursor (targets.map (askType source shape)) := by
  intro ask member
  obtain ⟨target, known, rfl⟩ := List.mem_map.mp member
  exact ⟨target, each target known⟩

theorem variableSite_anchored : Anchored source cursor (variableSite source features cursor) := by
  unfold variableSite
  split
  · exact anchored_nil
  · next name found =>
    split
    · exact anchored_nil
    · exact anchored_ite (anchored_singleton (.name (by simp [Cursor.fieldName?, found])))

theorem parameterAsks_anchored : Anchored source cursor (parameterAsks source features cursor) := by
  refine anchored_ite (anchored_map _ fun target member => ?_)
  obtain ⟨parameter, untyped, rfl⟩ := List.mem_map.mp (List.mem_filter.mp member).1
  exact .parameter (List.mem_filter.mp untyped).1

theorem returnAsk_anchored : Anchored source cursor (returnAsk source features cursor) := by
  unfold returnAsk
  dsimp only
  split
  · exact anchored_nil
  · next parameters found => exact anchored_ite (anchored_singleton (.parameters found rfl rfl rfl))

theorem functionSite_anchored : Anchored source cursor (functionSite source features cursor) := by
  intro ask member
  exact (List.mem_append.mp member).elim (parameterAsks_anchored ask) (returnAsk_anchored ask)

theorem propertySite_anchored : Anchored source cursor (propertySite source features cursor) := by
  unfold propertySite
  split
  · exact anchored_nil
  · next name found => exact anchored_ite (anchored_singleton (.name found))

theorem objectPatternSite_anchored :
    Anchored source cursor (objectPatternSite source features cursor) := by
  refine anchored_ite (anchored_map _ fun target member => ?_)
  obtain ⟨part, isPart, binds⟩ := List.mem_filterMap.mp member
  exact .bound isPart (.inl binds)

theorem arrayPatternSite_anchored :
    Anchored source cursor (arrayPatternSite source features cursor) := by
  refine anchored_ite (anchored_map _ fun target member => ?_)
  obtain ⟨part, isPart, binds⟩ := List.mem_filterMap.mp member
  exact .bound isPart (.inr binds)

theorem objectLiteralSite_anchored :
    Anchored source cursor (objectLiteralSite source features cursor) := by
  refine anchored_ite fun ask member => ?_
  obtain ⟨part, isPart, asks⟩ := List.mem_filterMap.mp member
  unfold objectMemberAsk? at asks
  split at asks
  · obtain ⟨value, found, rfl⟩ := Option.map_eq_some_iff.mp asks
    exact ⟨value, .value isPart (Option.filter_eq_some_iff.mp found).1⟩
  · split at asks
    · obtain rfl := Option.some.inj asks
      exact ⟨part, .shorthand isPart⟩
    · simp at asks

theorem callSite_anchored : Anchored source cursor (callSite source features cursor) := by
  unfold callSite
  split
  · exact anchored_nil
  · next arguments found =>
    refine anchored_ite fun ask member => ?_
    obtain ⟨⟨argument, index⟩, counted, rfl⟩ := List.mem_map.mp member
    have isArgument := List.takeWhile_subset _ (List.fst_mem_of_mem_zipIdx counted)
    exact ⟨argument, .argument (Option.filter_eq_some_iff.mp found).1 isArgument⟩

theorem site_anchored : Anchored source cursor (site source features cursor) := by
  unfold site
  split
  · exact anchored_nil
  split
  · exact variableSite_anchored
  split
  · exact functionSite_anchored
  split
  · exact propertySite_anchored
  split
  · exact objectPatternSite_anchored
  split
  · exact arrayPatternSite_anchored
  split
  · exact objectLiteralSite_anchored
  split
  · exact callSite_anchored
  · exact anchored_nil

end

end Plan

/-! ## Aligned trees -/

namespace Text

/-- A character of the text begins at the byte, or the text ends there. -/
def IsBoundary (text : List Char) (offset : Nat) : Prop :=
  ∃ n ≤ text.length, bytes (text.take n) = offset

instance (text : List Char) (offset : Nat) : Decidable (IsBoundary text offset) :=
  inferInstanceAs (Decidable (∃ n, n ≤ text.length ∧ bytes (text.take n) = offset))

/-- Later characters begin at later bytes. -/
theorem bytes_take_lt {text : List Char} {m n : Nat} (before : m < n) (within : n ≤ text.length) :
    bytes (text.take m) < bytes (text.take n) := by
  induction text generalizing m n with
  | nil => simp at within; omega
  | cons c rest ih =>
    obtain ⟨n, rfl⟩ : ∃ k, n = k + 1 := ⟨n - 1, by omega⟩
    cases m with
    | zero =>
      have size := c.utf8Size_pos
      rw [List.take_zero, List.take_succ_cons, bytes, bytes]
      omega
    | succ m =>
      rw [List.take_succ_cons, List.take_succ_cons, bytes, bytes]
      exact Nat.add_lt_add_left (ih (by omega) (by simpa using within)) _

end Text

namespace Source

/-- Every node of the tree begins and ends between characters, and does not end before it
begins. -/
def Aligned (source : Source) : Prop :=
  ∀ node ∈ source.root.subtrees, node.start ≤ node.stop ∧
    IsBoundary source.text.toList node.start ∧ IsBoundary source.text.toList node.stop

instance (source : Source) : Decidable source.Aligned :=
  inferInstanceAs (Decidable (∀ node ∈ source.root.subtrees, _))

variable {source : Source} {a b : Nat}

theorem positionOf_le_positionOf (le : a ≤ b) (start : IsBoundary source.text.toList a)
    (stop : IsBoundary source.text.toList b) : source.positionOf a ≤ source.positionOf b := by
  obtain ⟨m, within, rfl⟩ := start
  obtain ⟨n, _, rfl⟩ := stop
  have order : m ≤ n := by
    by_contra later
    exact absurd le (Nat.not_le.mpr (bytes_take_lt (Nat.lt_of_not_le later) within))
  rw [positionOf, positionOf, positionOfByte_bytes_take, positionOfByte_bytes_take]
  exact positionAt_mono _ order

theorem clampPosition_positionOf (boundary : IsBoundary source.text.toList a) :
    clampPosition source.text.toList (source.positionOf a) = source.positionOf a := by
  obtain ⟨n, _, rfl⟩ := boundary
  rw [positionOf, positionOfByte_bytes_take, clampPosition_positionAt]

end Source

/-- The start and the end of a range are positions of the text, in this order. -/
structure Ask.Placed (text : String) (ask : Ask) : Prop where
  ordered : ask.start ≤ ask.stop
  start : clampPosition text.toList ask.start = ask.start
  stop : clampPosition text.toList ask.stop = ask.stop

/-- The questions about an aligned tree are about ranges of the text. -/
theorem Source.Aligned.placed {source : Source} (aligned : source.Aligned) {features : Features}
    {site : Site} (isSite : site ∈ Plan.sites source features) {ask : Ask} (asks : ask ∈ site) :
    ask.Placed source.text := by
  obtain ⟨cursor, walked, rfl⟩ := List.mem_map.mp isSite
  obtain ⟨target, anchors⟩ := Plan.site_anchored ask asks
  have within := anchors.inherits (Cursor.inherited_within cursor) cursor.within_self
  have isWalked := (Cursor.inherited_within source.top).walked source.top.within_self walked
  obtain ⟨order, begins, ends⟩ :=
    aligned target.node (Node.mem_subtrees_trans within isWalked)
  refine ⟨?_, ?_, ?_⟩
  · rw [anchors.start_eq, anchors.stop_eq]
    exact positionOf_le_positionOf order begins ends
  · rw [anchors.start_eq]
    exact clampPosition_positionOf begins
  · rw [anchors.stop_eq]
    exact clampPosition_positionOf ends

end Inlay
