import Mathlib.Logic.Relation
import Inlay.Proofs.Contribution
import Inlay.Proofs.Sites

/-!
Questions lead back to the node that they were asked about.

A question tells its node by the bytes that the node covers, and whoever answers looks for the
smallest node that covers them. How it is looked for is left to the parser: all that is asked of a
search is that it finds a node that covers the range and none of whose children does. Children are
apart, so that the ways down to two nodes that share a byte go together as far as both go. What is
found is therefore the node or a part of it with the same extent.
-/

namespace Inlay

open Inlay.Tree

/-! ## Nested trees -/

namespace Tree.Node

/-- Every node of the tree has its children inside it, in order and apart. -/
def Nested (root : Node) : Prop :=
  ∀ node ∈ root.subtrees, node.start ≤ node.stop ∧
    node.children.Pairwise (fun a b => a.stop ≤ b.start) ∧
      ∀ child ∈ node.children, node.start ≤ child.start ∧ child.stop ≤ node.stop

instance (root : Node) : Decidable root.Nested :=
  inferInstanceAs (Decidable (∀ node ∈ root.subtrees, _))

variable {root node inner : Node}

theorem Nested.subtree (nested : root.Nested) (inside : node ∈ root.subtrees) : node.Nested :=
  fun _ below => nested _ (mem_subtrees_trans below inside)

theorem Nested.child (nested : node.Nested) (isChild : inner ∈ node.children) : inner.Nested :=
  nested.subtree (mem_subtrees_of_mem_children isChild)

theorem Nested.bounds (nested : node.Nested) (isChild : inner ∈ node.children) :
    node.start ≤ inner.start ∧ inner.stop ≤ node.stop :=
  (nested node (mem_subtrees_self node)).2.2 inner isChild

theorem Nested.start_le_stop (nested : node.Nested) : node.start ≤ node.stop :=
  (nested node (mem_subtrees_self node)).1

end Tree.Node

/-! ## Ways down -/

namespace Tree.Cursor

/-- The second is a part of the first, at whatever depth. -/
abbrev Below : Cursor → Cursor → Prop :=
  Relation.TransGen fun parent child => child ∈ parent.children

/-- The second is the first or a part of it. -/
abbrev AtOrBelow : Cursor → Cursor → Prop :=
  Relation.ReflTransGen fun parent child => child ∈ parent.children

/-- No part of the node covers all of it. -/
def Sole (cursor : Cursor) : Prop := ∀ part, cursor.Below part → part.sameExtent cursor = false

section

variable {root : Node} {cursor child target : Cursor}

theorem node_mem_of_below (below : cursor.Below target) :
    target.node ∈ Node.subtreesOfAll cursor.node.children := by
  induction below with
  | single isChild =>
    obtain ⟨node, isNode, rfl⟩ := List.mem_map.mp isChild
    exact Node.mem_subtreesOfAll.mpr ⟨node, isNode, node.mem_subtrees_self⟩
  | tail _ isChild ih =>
    obtain ⟨node, isNode, rfl⟩ := List.mem_map.mp isChild
    exact Node.mem_subtreesOfAll_trans (Node.mem_subtrees_of_mem_children isNode) ih

/-- The parts of a node can be looked through. -/
theorem sole_of_subtrees
    (apart : ∀ node ∈ Node.subtreesOfAll cursor.node.children,
      ¬ (node.start = cursor.start ∧ node.stop = cursor.stop)) : cursor.Sole := by
  intro part below
  simpa [sameExtent, start, stop] using apart part.node (node_mem_of_below below)

theorem sameExtent_iff : target.sameExtent cursor = true ↔
    target.start = cursor.start ∧ target.stop = cursor.stop := by
  simp [sameExtent]

theorem Sole.eq_of_sameExtent (sole : cursor.Sole) (below : cursor.AtOrBelow target)
    (same : target.sameExtent cursor = true) : target = cursor := by
  rcases Relation.reflTransGen_iff_eq_or_transGen.mp below with rfl | part
  · rfl
  · rw [sole target part] at same
    cases same

theorem mem_children_of_field {name : String} (isField : cursor.field? name = some target) :
    target ∈ cursor.children :=
  List.mem_reverse.mp (List.mem_of_find?_eq_some isField)

theorem node_mem_children (isChild : child ∈ cursor.children) :
    child.node ∈ cursor.node.children := by
  obtain ⟨node, isNode, rfl⟩ := List.mem_map.mp isChild
  exact isNode

theorem InTree.node_mem (inTree : InTree root cursor) : cursor.node ∈ root.subtrees := by
  induction inTree with
  | top => exact root.mem_subtrees_self
  | child _ isChild ih =>
    exact Node.mem_subtrees_trans (Node.mem_subtrees_of_mem_children (node_mem_children isChild)) ih

/-- A node that has parts, none of which covers all of it, covers some byte. -/
theorem Sole.start_lt_stop (sole : cursor.Sole) (nested : cursor.node.Nested)
    (isChild : child ∈ cursor.children) : cursor.start < cursor.stop := by
  have isNode := node_mem_children isChild
  obtain ⟨after, before⟩ := nested.bounds isNode
  have order := (nested.child isNode).start_le_stop
  rcases Nat.lt_or_ge cursor.start cursor.stop with covers | empty
  · exact covers
  · have same : child.sameExtent cursor = true := by
      rw [sameExtent_iff]
      simp only [start, stop] at *
      omega
    rw [sole child (.single isChild)] at same
    cases same

end

end Tree.Cursor

/-! ## The search for a range -/

namespace Tree.Cursor

variable {root : Node} {cursor other target found : Cursor} {start stop : Nat}

/-- The node covers the range. -/
def Spans (cursor : Cursor) (start stop : Nat) : Prop := cursor.start ≤ start ∧ stop ≤ cursor.stop

/-- The node covers the range, and none of its children does. -/
def Fits (cursor : Cursor) (start stop : Nat) : Prop :=
  cursor.Spans start stop ∧ ∀ child ∈ cursor.children, ¬ child.Spans start stop

theorem InTree.atOrBelow (inTree : InTree root cursor) : (Cursor.top root).AtOrBelow cursor := by
  induction inTree with
  | top => exact .refl
  | child _ isChild ih => exact ih.tail isChild

theorem InTree.of_atOrBelow (inTree : InTree root cursor) (below : cursor.AtOrBelow target) :
    InTree root target := by
  induction below with
  | refl => exact inTree
  | tail _ isChild ih => exact .child ih isChild

theorem AtOrBelow.spans (nested : cursor.node.Nested) (below : cursor.AtOrBelow target) :
    cursor.Spans target.start target.stop ∧ target.node.Nested := by
  induction below with
  | refl => exact ⟨⟨Nat.le_refl _, Nat.le_refl _⟩, nested⟩
  | tail _ isChild ih =>
    have isNode := node_mem_children isChild
    obtain ⟨⟨after, before⟩, nested⟩ := ih
    obtain ⟨begins, ends⟩ := nested.bounds isNode
    exact ⟨⟨Nat.le_trans after begins, Nat.le_trans ends before⟩, nested.child isNode⟩

theorem Spans.trans (spans : cursor.Spans other.start other.stop)
    (within : other.Spans start stop) : cursor.Spans start stop :=
  ⟨Nat.le_trans spans.1 within.1, Nat.le_trans within.2 spans.2⟩

/-- Children that cover the same byte are the same. -/
theorem eq_of_spans (nested : cursor.node.Nested) (isChild : target ∈ cursor.children)
    (isOther : other ∈ cursor.children) (covers : start < stop) (spans : target.Spans start stop)
    (spans' : other.Spans start stop) : target = other := by
  obtain ⟨node, isNode, rfl⟩ := List.mem_map.mp isChild
  obtain ⟨node', isNode', rfl⟩ := List.mem_map.mp isOther
  have ordered := (nested _ (Node.mem_subtrees_self _)).2.1
  obtain ⟨before, after, cut⟩ := List.append_of_mem isNode
  rw [cut, List.pairwise_append, List.pairwise_cons] at ordered
  simp only [Spans, Cursor.start, Cursor.stop] at spans spans'
  rw [cut, List.mem_append, List.mem_cons] at isNode'
  rcases isNode' with isBefore | rfl | isAfter
  · have apart := ordered.2.2 node' isBefore node (.head _)
    omega
  · rfl
  · have apart := ordered.2.1.1 node' isAfter
    omega

/-- The ways down to a node and to one that fits its range go together until they come to the
node. -/
theorem atOrBelow_of_fits (nested : cursor.node.Nested) (below : cursor.AtOrBelow target)
    (below' : cursor.AtOrBelow found) (covers : target.start < target.stop)
    (fits : found.Fits target.start target.stop) : target.AtOrBelow found := by
  induction below using Relation.ReflTransGen.head_induction_on with
  | refl => exact below'
  | @head parent child isChild below ih =>
    have nestedChild := nested.child (node_mem_children isChild)
    have spans := (AtOrBelow.spans nestedChild below).1
    rcases Relation.ReflTransGen.cases_head below' with rfl | ⟨other, isOther, below'⟩
    · exact absurd spans (fits.2 child isChild)
    · have nestedOther := nested.child (node_mem_children isOther)
      have spans' := (AtOrBelow.spans nestedOther below').1.trans fits.1
      obtain rfl := eq_of_spans nested isChild isOther covers spans spans'
      exact ih nestedChild below'

end Tree.Cursor

namespace Tree

/-- What is asked of a search: in a nested tree it finds a node that fits a range of at least one
byte. -/
def Search.Finds (search : Search) : Prop :=
  ∀ root : Node, root.Nested → ∀ start stop, root.start ≤ start → start < stop →
    stop ≤ root.stop →
    ∃ found, search root start stop = some found ∧ Cursor.InTree root found ∧
      found.Fits start stop

section

variable {search : Search} {root : Node} {target : Cursor}

/-- What a node's own range leads to is the node or a part with the same extent. -/
theorem Search.Finds.exists_of_inTree (finds : search.Finds) (nested : root.Nested)
    (inTree : Cursor.InTree root target) (covers : target.start < target.stop) :
    ∃ found, search root target.start target.stop = some found ∧
      target.AtOrBelow found ∧ found.sameExtent target = true := by
  have nestedTop : (Cursor.top root).node.Nested := nested
  have spans : root.start ≤ target.start ∧ target.stop ≤ root.stop :=
    (Cursor.AtOrBelow.spans nestedTop inTree.atOrBelow).1
  obtain ⟨found, leads, inTree', fits⟩ := finds root nested _ _ spans.1 covers spans.2
  have below :=
    Cursor.atOrBelow_of_fits nestedTop inTree.atOrBelow inTree'.atOrBelow covers fits
  obtain ⟨after, before⟩ := (Cursor.AtOrBelow.spans (nested.subtree inTree.node_mem) below).1
  refine ⟨found, leads, below, Cursor.sameExtent_iff.mpr ⟨?_, ?_⟩⟩
  · exact Nat.le_antisymm fits.1.1 after
  · exact Nat.le_antisymm before fits.1.2

theorem Search.Finds.eq_of_sole (finds : search.Finds) (nested : root.Nested)
    (inTree : Cursor.InTree root target) (covers : target.start < target.stop)
    (sole : target.Sole) : search root target.start target.stop = some target := by
  obtain ⟨found, leads, below, same⟩ := finds.exists_of_inTree nested inTree covers
  rw [leads, sole.eq_of_sameExtent below same]

end

/-! ## The search that is made -/

section

variable {start stop : Nat}

/-- A child that the search goes past does not cover the range. -/
theorem not_spans_of_passes {node : Node} (covers : start < stop)
    (passed : passes start stop node = true) : ¬ (node.start ≤ start ∧ stop ≤ node.stop) := by
  rintro ⟨_, reaches⟩
  have late : ¬ node.stop < stop := Nat.not_lt.mpr reaches
  simp only [passes, late, decide_false, Bool.false_or] at passed
  split at passed <;> simp only [decide_eq_true_eq] at passed <;> omega

theorem stop_le_of_not_passes {node : Node} (stays : ¬ passes start stop node = true) :
    stop ≤ node.stop := by
  simp only [passes, Bool.or_eq_true, decide_eq_true_eq, not_or, Nat.not_lt] at stays
  exact stays.1

mutual

theorem coveringNode_fits (covers : start < stop) (above : List Node) :
    {node : Node} → node.Nested → node.start ≤ start → stop ≤ node.stop →
      Cursor.AtOrBelow ⟨node, above⟩ (coveringNode start stop above node) ∧
        (coveringNode start stop above node).Fits start stop
  | .mk label children, nested, begins, reaches => by
    rw [coveringNode]
    exact coveringList_fits covers ⟨_, above⟩ nested ⟨begins, reaches⟩ (fun _ isChild => isChild)
      (fun _ isChild _ => isChild) (nested _ (Node.mem_subtrees_self _)).2.1

/-- The children that are left hold the one that covers the range, if any does. -/
theorem coveringList_fits (covers : start < stop) (here : Cursor) (nested : here.node.Nested)
    (spans : here.Spans start stop) :
    {nodes : List Node} → (∀ node ∈ nodes, node ∈ here.node.children) →
      (∀ child ∈ here.node.children, child.start ≤ start ∧ stop ≤ child.stop → child ∈ nodes) →
      nodes.Pairwise (fun a b => a.stop ≤ b.start) →
      here.AtOrBelow (coveringList start stop here (here.node :: here.above) nodes) ∧
        (coveringList start stop here (here.node :: here.above) nodes).Fits start stop
  | [], _, others, _ => by
    rw [coveringList]
    refine ⟨.refl, spans, fun child isChild isSpan => ?_⟩
    exact absurd (others child.node (Cursor.node_mem_children isChild) isSpan) (by simp)
  | first :: rest, areChildren, others, ordered => by
    obtain ⟨apart, ordered'⟩ := List.pairwise_cons.mp ordered
    have isFirst := areChildren first (.head _)
    rw [coveringList]
    split
    · next passed =>
      refine coveringList_fits covers here nested spans
        (fun node isNode => areChildren node (.tail _ isNode)) (fun child isChild isSpan => ?_)
        ordered'
      rcases List.mem_cons.mp (others child isChild isSpan) with rfl | later
      · exact absurd isSpan (not_spans_of_passes covers passed)
      · exact later
    · next stays =>
      split
      · next late =>
        refine ⟨.refl, spans, fun child isChild isSpan => ?_⟩
        have begins : child.node.start ≤ start := isSpan.1
        rcases List.mem_cons.mp (others child.node (Cursor.node_mem_children isChild) isSpan) with
          same | later
        · rw [same] at begins
          omega
        · have behind := apart child.node later
          have order := (nested.child isFirst).start_le_stop
          omega
      · next early =>
        obtain ⟨below, fits⟩ := coveringNode_fits covers (here.node :: here.above)
          (nested.child isFirst) (Nat.not_lt.mp early) (stop_le_of_not_passes stays)
        exact ⟨.head (List.mem_map_of_mem isFirst) below, fits⟩

end

theorem finds_covering? : Search.Finds covering? := by
  intro root nested start stop begins covers reaches
  obtain ⟨below, fits⟩ := coveringNode_fits covers [] nested begins reaches
  refine ⟨_, if_neg (Nat.not_lt.mpr (Nat.le_of_lt covers)), ?_, fits⟩
  exact Cursor.InTree.top.of_atOrBelow below

end

end Tree

/-! ## Questions and their nodes -/

namespace Plan

section

variable {source : Source} {features : Features} {construct : Cursor} {ask : Ask}

/-- What a function returns is asked with the range of the function, which has parameters. -/
theorem returnQuery_of_mem (asked : ask ∈ site source features construct)
    (kind : ask.query.kind = .returnType) :
    (ask.query.start = construct.start ∧ ask.query.stop = construct.stop) ∧
      ∃ child, child ∈ construct.children := by
  rcases site_of_isFunction_or_isLone with ⟨_, isSite⟩ | isLone
  · rw [isSite] at asked
    rcases List.mem_append.mp asked with asked | asked
    · obtain ⟨target, _, rfl⟩ := List.mem_map.mp (List.mem_ite_nil_right.mp asked).2
      cases kind
    · unfold returnAsk at asked
      dsimp only at asked
      split at asked
      · cases asked
      · next parameters found =>
        obtain rfl := List.mem_singleton.mp (List.mem_ite_nil_right.mp asked).2
        rcases Option.or_eq_some_iff.mp found with isField | ⟨_, isField⟩
        · exact ⟨⟨rfl, rfl⟩, parameters, Cursor.mem_children_of_field isField⟩
        · exact ⟨⟨rfl, rfl⟩, parameters, Cursor.mem_children_of_field isField⟩
  · exact absurd kind (isLone ask asked).kind

/-- The name of a parameter is asked with the range of the call, which has arguments, and with the
number of the argument. -/
theorem argumentQuery_of_mem (asked : ask ∈ site source features construct)
    (kind : ask.query.kind = .parameterName) :
    ((ask.query.start = construct.start ∧ ask.query.stop = construct.stop) ∧
      ∃ child, child ∈ construct.children) ∧ ∃ index : Nat, ask.query.argument = some ↑index := by
  obtain ⟨target, anchors⟩ := site_anchored ask asked
  cases anchors with
  | argument isList _ => exact ⟨⟨⟨rfl, rfl⟩, _, Cursor.mem_children_of_field isList⟩, _, rfl⟩
  | parameters _ returned _ _ =>
    rw [returned] at kind
    cases kind
  | name | parameter | bound | value | shorthand => cases kind

/-- The range of a question leads back to the node whose range it is. -/
theorem search_query {search : Search} (finds : search.Finds) (nested : source.root.Nested)
    (walked : construct ∈ source.top.walk) (sole : construct.Sole)
    (own : (ask.query.start = construct.start ∧ ask.query.stop = construct.stop) ∧
      ∃ child, child ∈ construct.children) :
    search source.root ask.query.start ask.query.stop = some construct := by
  obtain ⟨⟨start, stop⟩, child, isChild⟩ := own
  have inTree := (Cursor.inherited_inTree source.root).walked .top walked
  have covers := sole.start_lt_stop (nested.subtree inTree.node_mem) isChild
  rw [start, stop, finds.eq_of_sole nested inTree covers sole]

end

end Plan

namespace Infer

theorem find_isFunction {function : Cursor} (isFunction : function.isFunction = true) :
    function.outward.find? (·.isFunction) = some function :=
  List.find?_cons_of_pos isFunction

theorem enclosingCall_eq_self {call : Cursor}
    (isCall : call.kind = "call_expression" ∨ call.kind = "new_expression") :
    enclosingCall call = call := by
  have first : (call.kind == "call_expression" || call.kind == "new_expression") = true := by
    simpa using isCall
  have found : call.outward.find? (fun c =>
      c.kind == "call_expression" || c.kind == "new_expression") = some call :=
    List.find?_cons_of_pos first
  unfold enclosingCall
  dsimp only
  rw [found, Option.getD_some]

theorem parameterName_natCast (source : Source) (call : Cursor) (index : Nat) :
    parameterName source call index =
      .ok ((callee? source call).bind fun function =>
        function.parameters[index]?.bind (shownName? source)) := by
  unfold parameterName
  cases callee? source call with
  | none => rfl
  | some function =>
    have counted : ¬ (index : Int) < 0 := by omega
    simp [counted]

/-- Locators lead back to their nodes. In a nested tree the range of a node that covers a byte leads
to the node or to a part of it with the same extent, by every search that finds a node that fits a
range. Hence what is asked about the result of a function is answered for this very function, and
what is asked about an argument of a call with the name that the parameter in its place shows of
what this very call runs, unless some part of the function or the call covers all of it. -/
theorem locators_lead_back (search : Search) (finds : search.Finds) (source : Source)
    (features : Features) (nested : source.root.Nested) :
    (∀ target, Cursor.InTree source.root target → target.start < target.stop →
      ∃ found, search source.root target.start target.stop = some found ∧
        target.AtOrBelow found ∧ found.sameExtent target = true) ∧
    (∀ function ∈ source.top.walk, function.isFunction = true → function.Sole →
      ∀ ask ∈ Plan.site source features function, ask.query.kind = .returnType →
        answerBy search source ask.query = .ok ((atDepth source 0).returned function)) ∧
    ∀ call ∈ source.top.walk, call.kind = "call_expression" ∨ call.kind = "new_expression" →
      call.Sole → ∀ ask ∈ Plan.site source features call, ask.query.kind = .parameterName →
        enclosingCall call = call ∧ ∃ index : Nat, ask.query.argument = some ↑index ∧
          answerBy search source ask.query =
            .ok ((callee? source call).bind fun function =>
              function.parameters[index]?.bind (shownName? source)) := by
  refine ⟨fun target => finds.exists_of_inTree nested, ?_, ?_⟩
  · intro function walked isFunction sole ask asked kind
    have found := Plan.search_query finds nested walked sole (Plan.returnQuery_of_mem asked kind)
    simp only [answerBy, found, kind, find_isFunction isFunction, Option.bind_some]
  · intro call walked isCall sole ask asked kind
    obtain ⟨own, index, counted⟩ := Plan.argumentQuery_of_mem asked kind
    have found := Plan.search_query finds nested walked sole own
    refine ⟨enclosingCall_eq_self isCall, index, counted, ?_⟩
    simp only [answerBy, found, kind, counted, Option.getD_some, parameterName_natCast]

/-- An arrow function inside another one, both with the same end, and at that end a call of the
outer one. The range of the call leads to the name of the parameter of the outer function. -/
theorem nested_arrows_told_apart :
    let node := fun kind start stop fields children =>
      Node.mk ⟨kind, true, false, false, false, start, stop, fields⟩ children
    let call := node "call_expression" 20 24 ["body"]
      [node "identifier" 20 21 ["function"] [],
        node "arguments" 21 24 ["arguments"] [node "identifier" 22 23 [] []]]
    let inner := node "arrow_function" 15 24 ["body"]
      [node "identifier" 15 16 ["parameter"] [], call]
    let outer := node "arrow_function" 10 24 ["value"]
      [node "identifier" 10 11 ["parameter"] [], inner]
    let declarator := node "variable_declarator" 6 24 [] [node "identifier" 6 7 ["name"] [], outer]
    let statement := node "lexical_declaration" 0 24 [] [declarator]
    let root := node "program" 0 24 [] [statement]
    let source : Source := ⟨"a.ts", "const f = a => b => f(b)", .typescript, root, 0⟩
    let ofOuter : Query := ⟨.returnType, 10, 24, ⟨0, 6⟩, "f", none⟩
    let ofInner : Query := ⟨.returnType, 15, 24, ⟨0, 15⟩, "", none⟩
    let ofCall : Query := ⟨.parameterName, 20, 24, ⟨0, 22⟩, "", some 0⟩
    let around := [declarator, statement, root]
    root.Nested ∧ Cursor.Sole ⟨outer, around⟩ ∧ Cursor.Sole ⟨inner, outer :: around⟩ ∧
      Cursor.Sole ⟨call, inner :: outer :: around⟩ ∧
      answer source ofOuter = .ok ((atDepth source 0).returned ⟨outer, around⟩) ∧
      answer source ofInner = .ok ((atDepth source 0).returned ⟨inner, outer :: around⟩) ∧
      answer source ofCall = .ok (some "a") := by
  intro node call inner outer declarator statement root source ofOuter ofInner ofCall around
  have nested : root.Nested := by decide
  have soleOuter : Cursor.Sole ⟨outer, around⟩ := Cursor.sole_of_subtrees (by decide)
  have soleInner : Cursor.Sole ⟨inner, outer :: around⟩ := Cursor.sole_of_subtrees (by decide)
  have soleCall : Cursor.Sole ⟨call, inner :: outer :: around⟩ :=
    Cursor.sole_of_subtrees (by decide)
  have shown : ((callee? source ⟨call, inner :: outer :: around⟩).bind fun function =>
      function.parameters[0]?.bind (shownName? source)) = some "a" := by decide +kernel
  obtain ⟨_, ofFunctions, ofCalls⟩ :=
    locators_lead_back covering? finds_covering? source .standard nested
  refine ⟨nested, soleOuter, soleInner, soleCall, ?_, ?_, ?_⟩
  · exact ofFunctions _ (List.mem_of_getElem? (i := 4) rfl) rfl soleOuter
      ⟨ofOuter, ⟨0, 10⟩, ⟨0, 11⟩, .returned true⟩ (by decide) rfl
  · exact ofFunctions _ (List.mem_of_getElem? (i := 6) rfl) rfl soleInner
      ⟨ofInner, ⟨0, 15⟩, ⟨0, 16⟩, .returned true⟩ (by decide) rfl
  · obtain ⟨_, index, counted, answered⟩ := ofCalls ⟨call, inner :: outer :: around⟩
      (List.mem_of_getElem? (i := 8) rfl) (.inl rfl) soleCall
      ⟨ofCall, ⟨0, 22⟩, ⟨0, 23⟩, .argument (some "b")⟩ (by decide) rfl
    have first : (0 : Int) = index := by simpa [ofCall] using counted
    obtain rfl : 0 = index := by omega
    exact answered.trans (congrArg Except.ok shown)

end Infer

end Inlay
