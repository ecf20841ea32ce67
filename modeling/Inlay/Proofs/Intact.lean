import Inlay.Proofs.BuildResult

/-!
Hints and broken syntax.

The walk stops at nodes that the parser gave up on or made up, so that a construct that it comes to
has none above it. What is asked about a construct, though, is found through its fields and
children, and among these there may be broken nodes. A hint or a question belongs to broken syntax
exactly if it was led there inside its own construct.
-/

namespace Inlay

open Inlay.Tree

namespace Tree.Cursor

/-- The nodes from that of the cursor up to the root. -/
def path (cursor : Cursor) : List Node := cursor.node :: cursor.above

/-- The node is broken or lies below a broken one. -/
def InBroken (cursor : Cursor) : Prop := ∃ node ∈ cursor.path, node.isBroken = true

/-- The nodes from that of the cursor up to those of an outer one. -/
def route (cursor outer : Cursor) : List Node :=
  cursor.path.take (cursor.path.length - outer.path.length)

/-- The way up from the cursor passes nodes below the outer one and then comes to it. -/
def LeadsTo (outer cursor : Cursor) : Prop :=
  ∃ passed, cursor.path = passed ++ outer.path ∧ cursor.Within outer ∧
    ∀ node ∈ passed, node ∈ outer.node.subtrees

theorem leadsTo_self (outer : Cursor) : outer.LeadsTo outer :=
  ⟨[], rfl, outer.within_self, by simp⟩

theorem inherited_leadsTo (outer : Cursor) : Inherited outer.LeadsTo := by
  intro cursor child leads isChild
  obtain ⟨passed, path, within, inside⟩ := leads
  have below := inherited_within outer cursor child within isChild
  obtain ⟨node, _, rfl⟩ := List.mem_map.mp isChild
  refine ⟨node :: passed, ?_, below, ?_⟩
  · show node :: cursor.path = _
    rw [path, List.cons_append]
  · rw [List.forall_mem_cons]
    exact ⟨below, inside⟩

section

variable {cursor outer : Cursor}

theorem LeadsTo.path_eq (leads : outer.LeadsTo cursor) :
    cursor.path = cursor.route outer ++ outer.path := by
  obtain ⟨passed, path, _⟩ := leads
  have passedOnly : cursor.route outer = passed := by simp [route, path]
  rw [passedOnly, path]

theorem LeadsTo.inside (leads : outer.LeadsTo cursor) :
    ∀ node ∈ cursor.route outer, node ∈ outer.node.subtrees := by
  obtain ⟨passed, path, _, inside⟩ := leads
  have passedOnly : cursor.route outer = passed := by simp [route, path]
  rwa [passedOnly]

/-- Below an unbroken way up, only the nodes in between can be broken. -/
theorem LeadsTo.inBroken_iff (leads : outer.LeadsTo cursor)
    (unbroken : ∀ node ∈ outer.path, node.isBroken = false) :
    cursor.InBroken ↔ ∃ node ∈ cursor.route outer, node.isBroken = true := by
  unfold InBroken
  rw [leads.path_eq]
  constructor
  · rintro ⟨node, isPassed, broken⟩
    rcases List.mem_append.mp isPassed with between | above
    · exact ⟨node, between, broken⟩
    · rw [unbroken node above] at broken
      cases broken
  · rintro ⟨node, between, broken⟩
    exact ⟨node, List.mem_append_left _ between, broken⟩

end

/-- The walk comes only to nodes that are not broken and have no broken one above them. -/
theorem unbroken_of_mem_walk {top cursor : Cursor}
    (unbroken : ∀ node ∈ top.above, node.isBroken = false) (walked : cursor ∈ top.walk) :
    ∀ node ∈ cursor.path, node.isBroken = false := by
  have passes : ∀ outer child : Cursor, (∀ node ∈ outer.above, node.isBroken = false) →
      Traversal.unbroken.enters outer = true → child ∈ outer.children →
        ∀ node ∈ child.above, node.isBroken = false := by
    intro outer child above entered isChild
    obtain ⟨node, _, rfl⟩ := List.mem_map.mp isChild
    exact List.forall_mem_cons.mpr ⟨by simpa [Traversal.unbroken] using entered, above⟩
  rw [walk_eq_given] at walked
  obtain ⟨own, above⟩ := Traversal.of_mem_given passes unbroken walked
  exact List.forall_mem_cons.mpr ⟨by simpa [Traversal.unbroken] using own, above⟩

end Tree.Cursor

/-! ## What is asked about and what is shown -/

namespace Plan

/-- A question of the plan belongs to a node of the tree. -/
def Targets (source : Source) (features : Features) (ask : Ask) (target : Cursor) : Prop :=
  ∃ construct ∈ source.top.walk, ask ∈ site source features construct ∧
    Anchors source construct ask target

/-- No node is broken between a construct and the nodes that its questions belong to, these
included. -/
def PartsWhole (source : Source) (features : Features) : Prop :=
  ∀ construct ∈ source.top.walk, ∀ ask ∈ site source features construct, ∀ target,
    Anchors source construct ask target →
      ∀ node ∈ target.route construct, node.isBroken = false

/-- Constructs that are asked about have no broken nodes in them. -/
def ConstructsWhole (source : Source) (features : Features) : Prop :=
  ∀ construct ∈ source.top.walk, site source features construct ≠ [] →
    ∀ node ∈ construct.node.subtrees, node.isBroken = false

instance (source : Source) (features : Features) : Decidable (ConstructsWhole source features) :=
  inferInstanceAs (Decidable (∀ construct ∈ source.top.walk, _))

section

variable {source : Source} {features : Features} {ask : Ask} {construct target : Cursor}

theorem Anchors.leadsTo (anchors : Anchors source construct ask target) :
    construct.LeadsTo target :=
  anchors.inherits (Cursor.inherited_leadsTo construct) construct.leadsTo_self

theorem Anchors.inBroken_iff (walked : construct ∈ source.top.walk)
    (anchors : Anchors source construct ask target) :
    target.InBroken ↔ ∃ node ∈ target.route construct, node.isBroken = true :=
  anchors.leadsTo.inBroken_iff (Cursor.unbroken_of_mem_walk (by simp [Source.top, Cursor.top])
    walked)

theorem partsWhole_iff :
    PartsWhole source features ↔
      ∀ ask target, Targets source features ask target → ¬ target.InBroken := by
  constructor
  · rintro whole ask target ⟨construct, walked, asked, anchors⟩ broken
    obtain ⟨node, passed, broken⟩ := (anchors.inBroken_iff walked).mp broken
    rw [whole construct walked ask asked target anchors node passed] at broken
    cases broken
  · intro avoids construct walked ask asked target anchors node passed
    have targets : Targets source features ask target := ⟨construct, walked, asked, anchors⟩
    by_contra broken
    refine avoids ask target targets ((anchors.inBroken_iff walked).mpr ⟨node, passed, ?_⟩)
    simpa using broken

theorem ConstructsWhole.partsWhole (whole : ConstructsWhole source features) :
    PartsWhole source features := by
  intro construct walked ask asked target anchors node passed
  have inside := anchors.leadsTo.inside node passed
  exact whole construct walked (List.ne_nil_of_mem asked) node inside

theorem exists_targets (asked : ask ∈ (sites source features).flatten) :
    ∃ target, Targets source features ask target := by
  obtain ⟨questions, isSite, asks⟩ := List.mem_flatten.mp asked
  obtain ⟨construct, walked, rfl⟩ := List.mem_map.mp isSite
  obtain ⟨target, anchors⟩ := site_anchored ask asks
  exact ⟨target, construct, walked, asks, anchors⟩

end

end Plan

namespace Build

theorem answers_of_planHints {features : Features} {sites : List Site}
    {answers : List (Option String)} {hints : List Hint}
    (made : planHints features sites answers = .ok hints) :
    ∀ hint ∈ hints, ∃ ask ∈ sites.flatten, Answers ask hint := by
  induction sites generalizing answers hints with
  | nil =>
    obtain rfl := Except.ok.inj made
    simp
  | cons site rest ih =>
    rw [planHints] at made
    split at made
    · cases made
    · next first isMade =>
      cases rest' : planHints features rest (answers.drop site.length) with
      | error trouble => simp [rest', Except.map] at made
      | ok others =>
        simp only [rest', Except.map, Except.ok.injEq] at made
        subst made
        intro hint isHint
        rw [List.flatten_cons]
        rcases List.mem_append.mp isHint with here | there
        · obtain ⟨pair, known, fits⟩ := answers_of_siteHints isMade hint here
          exact ⟨pair.1, List.mem_append_left _ (List.of_mem_zip known).1, fits⟩
        · obtain ⟨ask, asked, fits⟩ := ih rest' hint there
          exact ⟨ask, List.mem_append_right _ asked, fits⟩

end Build

/-- Every question of a build belongs to a node, and every hint answers one of the questions. No
question belongs to a node that is broken or lies below a broken one if and only if no node is
broken between a construct and the nodes that its questions belong to. If the constructs that are
asked about have no broken nodes in them, this is so. -/
theorem broken_syntax_avoided_iff_parts_whole (source : Source) (features : Features) :
    (Plan.PartsWhole source features ↔
      ∀ ask target, Plan.Targets source features ask target → ¬ target.InBroken) ∧
    (Plan.ConstructsWhole source features → Plan.PartsWhole source features) ∧
    (∀ ask ∈ (Plan.sites source features).flatten,
      ∃ target, Plan.Targets source features ask target) ∧
    ∀ answers built, Build.finish source features answers = .ok built →
      ∀ hint ∈ built.hints, ∃ ask target, Plan.Targets source features ask target ∧
        Build.Answers ask hint := by
  refine ⟨Plan.partsWhole_iff, Plan.ConstructsWhole.partsWhole, fun _ => Plan.exists_targets, ?_⟩
  intro answers built finished hint isHint
  unfold Build.finish at finished
  cases made : Build.planHints features (Plan.sites source features) answers with
  | error trouble => simp [made, Except.map] at finished
  | ok hints =>
    simp only [made, Except.map, Except.ok.injEq] at finished
    subst finished
    have known := (Build.distinct_sublist [] hints).subset (List.mem_mergeSort.mp isHint)
    obtain ⟨ask, asked, fits⟩ := Build.answers_of_planHints made hint known
    obtain ⟨target, targets⟩ := Plan.exists_targets asked
    exact ⟨ask, target, targets, fits⟩

/-- Behind a declaration stands a bracket that the parser gives up on. The hint of the declaration
belongs to a node that is not broken. -/
theorem hint_beside_stray_bracket :
    let node := fun kind start stop fields children =>
      Node.mk ⟨kind, true, false, false, false, start, stop, fields⟩ children
    let declaration := node "lexical_declaration" 0 10 [] [node "variable_declarator" 4 9 []
      [node "identifier" 4 5 ["name"] [], node "number" 8 9 ["value"] []]]
    let stray := Node.mk ⟨"ERROR", true, true, false, true, 11, 12, []⟩ []
    let root := node "program" 0 12 [] [declaration, stray]
    let source : Source := ⟨"a.ts", "let x = 1; )", .typescript, root, 0⟩
    let hint : Hint := ⟨"", ": number", ⟨0, 4⟩, ⟨0, 5⟩, false, by decide⟩
    (∃ node ∈ root.subtrees, node.isBroken = true) ∧ Plan.ConstructsWhole source .standard ∧
      ∃ built, Build.finish source .standard [some "number"] = .ok built ∧ hint ∈ built.hints ∧
        ∃ ask target, Plan.Targets source .standard ask target ∧ ¬ target.InBroken ∧
          Build.Answers ask hint := by
  intro node declaration stray root source hint
  have whole : Plan.ConstructsWhole source .standard := by decide
  obtain ⟨avoids, parts, _, answered⟩ := broken_syntax_avoided_iff_parts_whole source .standard
  have made : Build.planHints .standard (Plan.sites source .standard) [some "number"] =
      .ok [hint] := by decide
  have finished : Build.finish source .standard [some "number"] =
      .ok ⟨[hint].mergeSort Build.precedes, source.hasErrors⟩ := by
    rewrite [Build.finish, made]
    rfl
  have shown : hint ∈ [hint].mergeSort Build.precedes := List.mem_mergeSort.mpr (.head _)
  obtain ⟨ask, target, targets, answers⟩ := answered _ _ finished hint shown
  exact ⟨by decide, whole, _, finished, shown, ask, target, targets,
    avoids.mp (parts whole) ask target targets, answers⟩

/-- A property without a value gets a hint where the parser made up the value. -/
theorem missing_value_is_decorated :
    let node := fun kind start stop fields children =>
      Node.mk ⟨kind, true, false, false, true, start, stop, fields⟩ children
    let value := Node.mk ⟨"identifier", true, false, true, true, 12, 12, ["value"]⟩ []
    let pair := node "pair" 10 12 [] [node "property_identifier" 10 11 ["key"] [], value]
    let literal := node "object" 8 14 ["value"] [pair]
    let declarator := node "variable_declarator" 4 14 []
      [node "identifier" 4 5 ["name"] [], literal]
    let declaration := node "lexical_declaration" 0 15 [] [declarator]
    let root := node "program" 0 15 [] [declaration]
    let source : Source := ⟨"a.ts", "let o = \x7b a: \x7d;", .typescript, root, 0⟩
    let target : Cursor := ⟨value, [pair, literal, declarator, declaration, root]⟩
    let hint : Hint := ⟨"<T>", "", ⟨0, 12⟩, ⟨0, 12⟩, false, by decide⟩
    target.InBroken ∧
      (∃ ask, Plan.Targets source .standard ask target ∧ Build.Answers ask hint) ∧
      ∃ built, build source .standard (fun _ _ => some "T") = .ok built ∧ hint ∈ built.hints := by
  intro node value pair literal declarator declaration root source target hint
  let ask := Plan.askType source .cast target
  have anchors : Plan.Anchors source ⟨literal, [declarator, declaration, root]⟩ ask target :=
    .value (.head _) rfl
  have targets : Plan.Targets source .standard ask target :=
    ⟨⟨literal, [declarator, declaration, root]⟩, .tail _ (.tail _ (.tail _ (.tail _ (.head _)))),
      .head _, anchors⟩
  have answers : Build.Answers ask hint :=
    ⟨by decide, by decide, false, some "T", "T", by decide, rfl⟩
  have made : Build.planHints .standard (Plan.sites source .standard)
      ((Plan.queries source .standard).map fun _ => some "T") =
      .ok [⟨"", ": T", ⟨0, 4⟩, ⟨0, 5⟩, false, by decide⟩, hint] := by decide
  have finished : build source .standard (fun _ _ => some "T") = .ok
      ⟨(Build.distinct [] [⟨"", ": T", ⟨0, 4⟩, ⟨0, 5⟩, false, by decide⟩, hint]).mergeSort
        Build.precedes, source.hasErrors⟩ := by
    rewrite [build, Build.finish, made]
    rfl
  refine ⟨⟨value, .head _, rfl⟩, ⟨ask, targets, answers⟩, _, finished, ?_⟩
  exact List.mem_mergeSort.mpr (.tail _ (.head _))

end Inlay
