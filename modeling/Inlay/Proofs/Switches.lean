import Inlay.Proofs.Obtained

/-!
Features act independently of each other.

Each question of a file is asked by one feature, so the questions that two sets of features ask
together are those of the one and those of the other. Two features reach beyond their own questions.
Warnings change the flag of hints that others show, and the types of parameters decide who puts a
bare parameter in parentheses. Sets of features that agree on these two add up: the hints of both
together are the hints of the one and of the other.
-/

namespace Inlay

open Inlay.Tree

/-- One feature alone. -/
def Features.only (feature : Feature) : Features := ⟨fun other => decide (other = feature)⟩

namespace Plan

/-- Each question of a site is asked by one feature. -/
def Gated (site : Features → Site) : Prop :=
  ∀ features ask, ask ∈ site features ↔
    ∃ feature, features.enabled feature = true ∧ ask ∈ site (.only feature)

theorem gated_nil : Gated fun _ => [] := by simp [Gated]

theorem gated_feature (feature : Feature) (site : Site) :
    Gated fun features => if features.enabled feature then site else [] := by
  intro features ask
  simp [Features.only]

theorem gated_append {first second : Features → Site} (gated : Gated first)
    (gated' : Gated second) : Gated fun features => first features ++ second features := by
  intro features ask
  simp only [List.mem_append, and_or_left, exists_or, ← gated features ask, ← gated' features ask]

section

variable (source : Source) (cursor : Cursor)

theorem variableSite_gated : Gated fun features => variableSite source features cursor := by
  unfold variableSite
  split
  · exact gated_nil
  · dsimp only
    split
    · exact gated_nil
    · exact gated_feature _ _

theorem parameterAsks_gated : Gated fun features => parameterAsks source features cursor :=
  gated_feature _ _

theorem returnAsk_gated : Gated fun features => returnAsk source features cursor := by
  unfold returnAsk
  dsimp only
  split
  · exact gated_nil
  · simp only [Bool.and_eq_true, ite_and]
    exact gated_feature _ _

theorem propertySite_gated : Gated fun features => propertySite source features cursor := by
  unfold propertySite
  split
  · exact gated_nil
  · simp only [Bool.and_assoc, Bool.and_eq_true, ite_and]
    exact gated_feature _ _

theorem callSite_gated : Gated fun features => callSite source features cursor := by
  unfold callSite
  split
  · exact gated_nil
  · exact gated_feature _ _

theorem site_gated : Gated fun features => site source features cursor := by
  unfold site
  split
  · exact gated_nil
  split
  · exact variableSite_gated source cursor
  split
  · exact gated_append (parameterAsks_gated source cursor) (returnAsk_gated source cursor)
  split
  · exact propertySite_gated source cursor
  split
  · exact gated_feature _ _
  split
  · exact gated_feature _ _
  split
  · exact gated_feature _ _
  split
  · exact callSite_gated source cursor
  · exact gated_nil

end

section

variable {source : Source} {a b : Features} {cursor : Cursor} {ask : Ask}

theorem mem_site_join :
    ask ∈ site source (a.join b) cursor ↔
      ask ∈ site source a cursor ∨ ask ∈ site source b cursor := by
  have gated := site_gated source cursor
  rw [gated (a.join b) ask, gated a ask, gated b ask]
  simp only [Features.join, Bool.or_eq_true, or_and_right, exists_or]

/-- The types of bare parameters are asked for by the feature that asks for types of parameters. -/
theorem enabled_of_wrapped (asked : ask ∈ site source a cursor) (wrapped : ask.shape = .wrapped) :
    a.enabled .functionParameterType = true := by
  rcases site_of_isFunction_or_isLone with ⟨_, isSite⟩ | isLone
  · rw [isSite] at asked
    rcases List.mem_append.mp asked with asked | asked
    · exact (List.mem_ite_nil_right.mp asked).1
    · simp [(returned_of_mem asked).1] at wrapped
  · exact absurd wrapped (isLone ask asked).unwrapped

theorem mem_site_of_wrapped
    (same : a.enabled .functionParameterType = b.enabled .functionParameterType)
    (asked : ask ∈ site source a cursor) (wrapped : ask.shape = .wrapped) :
    ask ∈ site source b cursor := by
  have gated := site_gated source cursor
  obtain ⟨feature, _, alone⟩ := (gated a ask).mp asked
  have isFeature : .functionParameterType = feature :=
    of_decide_eq_true (enabled_of_wrapped alone wrapped)
  exact (gated b ask).mpr ⟨feature, isFeature ▸ same ▸ enabled_of_wrapped asked wrapped, alone⟩

end

end Plan

namespace Build

/-- The features agree on warnings and on the types of parameters. -/
structure Agree (a b : Features) : Prop where
  warnings : a.enabled .highlightAny = b.enabled .highlightAny
  parameters : a.enabled .functionParameterType = b.enabled .functionParameterType

section

variable {source : Source} {oracle : Oracle} {a b : Features} {construct : Cursor} {ask : Ask}
  {hint : Hint}

theorem Agree.symm (agree : Agree a b) : Agree b a := ⟨agree.warnings.symm, agree.parameters.symm⟩

theorem Agree.join_left (agree : Agree a b) : Agree (a.join b) a where
  warnings := by simp [Features.join, agree.warnings]
  parameters := by simp [Features.join, agree.parameters]

theorem Agree.join_right (agree : Agree a b) : Agree (a.join b) b where
  warnings := agree.join_left.warnings.trans agree.warnings
  parameters := agree.join_left.parameters.trans agree.parameters

theorem Agree.wraps (agree : Agree a b) :
    wraps (answered source oracle (Plan.site source a construct)) =
      Build.wraps (answered source oracle (Plan.site source b construct)) := by
  rw [Bool.eq_iff_iff, wraps_answered_iff, wraps_answered_iff]
  constructor
  · rintro ⟨ask, asked, wrapped, told⟩
    exact ⟨ask, Plan.mem_site_of_wrapped agree.parameters asked wrapped, wrapped, told⟩
  · rintro ⟨ask, asked, wrapped, told⟩
    exact ⟨ask, Plan.mem_site_of_wrapped agree.parameters.symm asked wrapped, wrapped, told⟩

theorem Agree.isWarning (agree : Agree a b) (label : String) (shape : Shape) :
    isWarning a label shape = Build.isWarning b label shape := by
  cases shape with
  | argument => rfl
  | colon | cast | wrapped | returned => simp only [Build.isWarning, agree.warnings]

/-- A question that both sets of features ask gives the same hint. -/
theorem Obtains.of_agree (agree : Agree a b) (obtains : Obtains source a oracle construct ask hint)
    (asked : ask ∈ Plan.site source b construct) :
    Obtains source b oracle construct ask hint := by
  obtain ⟨walked, _, label, told, shows⟩ := obtains
  refine ⟨walked, asked, label, told, shows.start, shows.stop, ?_, ?_⟩
  · rw [← agree.wraps]
    exact shows.texts
  · rw [← agree.isWarning]
    exact shows.warning

theorem obtains_join_iff (agree : Agree a b) :
    Obtains source (a.join b) oracle construct ask hint ↔
      Obtains source a oracle construct ask hint ∨ Obtains source b oracle construct ask hint := by
  constructor
  · intro obtains
    rcases Plan.mem_site_join.mp obtains.asked with asked | asked
    · exact .inl (obtains.of_agree agree.join_left asked)
    · exact .inr (obtains.of_agree agree.join_right asked)
  · rintro (obtains | obtains)
    · exact obtains.of_agree agree.join_left.symm (Plan.mem_site_join.mpr (.inl obtains.asked))
    · exact obtains.of_agree agree.join_right.symm (Plan.mem_site_join.mpr (.inr obtains.asked))

theorem exists_build_join_iff :
    (∃ built, build source (a.join b) oracle = .ok built) ↔
      (∃ built, build source a oracle = .ok built) ∧
        ∃ built, build source b oracle = .ok built := by
  simp only [exists_build_iff, Plan.mem_site_join]
  constructor
  · intro ordered
    exact ⟨fun construct walked ask asked => ordered construct walked ask (.inl asked),
      fun construct walked ask asked => ordered construct walked ask (.inr asked)⟩
  · rintro ⟨first, second⟩ construct walked ask (asked | asked)
    · exact first construct walked ask asked
    · exact second construct walked ask asked

theorem mem_build_join (agree : Agree a b) {built first second : Built}
    (isBuilt : build source (a.join b) oracle = .ok built)
    (isFirst : build source a oracle = .ok first) (isSecond : build source b oracle = .ok second) :
    hint ∈ built.hints ↔ hint ∈ first.hints ∨ hint ∈ second.hints := by
  simp only [mem_build_iff isBuilt, mem_build_iff isFirst, mem_build_iff isSecond,
    obtains_join_iff agree, exists_or]

theorem agree_set {feature : Feature} (other : feature ≠ .highlightAny)
    (other' : feature ≠ .functionParameterType) : Agree a (a.set feature true) where
  warnings := by simp [Features.set, other.symm]
  parameters := by simp [Features.set, other'.symm]

theorem join_set (a : Features) (feature : Feature) :
    a.join (a.set feature true) = a.set feature true := by
  simp only [Features.join, Features.set, Features.mk.injEq]
  funext other
  split
  · exact Bool.or_true _
  · exact Bool.or_self _

end

/-- Features act independently of each other. If two sets of features agree on warnings and on the
types of parameters, then the hints with the features of either are those with the one together
with those with the other, and the build with both succeeds if and only if the two builds do. So
turning a feature on, other than these two, only adds hints, and there are none with all features
turned off. -/
theorem features_act_independently (source : Source) (oracle : Oracle) (a b : Features)
    (agree : Agree a b) :
    ((∃ built, build source (a.join b) oracle = .ok built) ↔
      (∃ first, build source a oracle = .ok first) ∧
        ∃ second, build source b oracle = .ok second) ∧
    (∀ built first second, build source (a.join b) oracle = .ok built →
      build source a oracle = .ok first → build source b oracle = .ok second →
        ∀ hint, hint ∈ built.hints ↔ hint ∈ first.hints ∨ hint ∈ second.hints) ∧
    (∀ feature, feature ≠ .highlightAny → feature ≠ .functionParameterType →
      ∀ built more, build source a oracle = .ok built →
        build source (a.set feature true) oracle = .ok more →
          ∀ hint ∈ built.hints, hint ∈ more.hints) ∧
    (∀ off : Features, (∀ feature, off.enabled feature = false) →
      ∃ built, build source off oracle = .ok built ∧ built.hints = []) ∧
    (source.Aligned → ∀ features, ∃ built, build source features oracle = .ok built) := by
  refine ⟨exists_build_join_iff, fun built first second isBuilt isFirst isSecond hint =>
    mem_build_join agree isBuilt isFirst isSecond, ?_, ?_, fun aligned features =>
    exists_build_of_aligned aligned⟩
  · intro feature other other' built more isBuilt isMore hint isHint
    have joined : build source (a.join (a.set feature true)) oracle = .ok more := by
      rw [join_set, isMore]
    exact (mem_build_join (agree_set other other') joined isBuilt isMore).mpr (.inl isHint)
  · intro off allOff
    have nothing : ∀ construct, ∀ ask, ask ∉ Plan.site source off construct := by
      intro construct ask asked
      obtain ⟨feature, on, _⟩ := (Plan.site_gated source construct off ask).mp asked
      simp [allOff feature] at on
    obtain ⟨built, isBuilt⟩ : ∃ built, build source off oracle = .ok built :=
      exists_build_iff.mpr fun construct _ ask asked => absurd asked (nothing construct ask)
    refine ⟨built, isBuilt, List.eq_nil_iff_forall_not_mem.mpr fun hint isHint => ?_⟩
    obtain ⟨construct, ask, obtains⟩ := (mem_build_iff isBuilt).mp isHint
    exact nothing construct ask obtains.asked

/-- The type of a variable and the name of a parameter in its value, asked for by one feature
each. -/
theorem variable_and_argument_add_up :
    let node := fun kind named start stop fields children =>
      Node.mk ⟨kind, named, false, false, false, start, stop, fields⟩ children
    let call := node "call_expression" true 8 12 ["value"]
      [node "identifier" true 8 9 ["function"] [],
        node "arguments" true 9 12 ["arguments"] [node "number" true 10 11 [] []]]
    let declarator := node "variable_declarator" true 4 12 []
      [node "identifier" true 4 5 ["name"] [], call]
    let root := node "program" true 0 12 [] [declarator]
    let source : Source := ⟨"a.ts", "let x = f(1)", .typescript, root, 1⟩
    let oracle : Oracle := fun _ query =>
      if query.kind = .parameterName then some "count" else some "number"
    let type : Hint := ⟨"", ": number", ⟨0, 4⟩, ⟨0, 5⟩, false, by decide⟩
    let name : Hint := ⟨"count: ", "", ⟨0, 10⟩, ⟨0, 11⟩, false, by decide⟩
    Agree (.only .variableType) (.only .parameterName) ∧ source.Aligned ∧
      ∃ built,
        build source (.join (.only .variableType) (.only .parameterName)) oracle = .ok built ∧
          type ∈ built.hints ∧ name ∈ built.hints := by
  intro node call declarator root source oracle type name
  have agree : Agree (.only .variableType) (.only .parameterName) := ⟨rfl, rfl⟩
  have aligned : source.Aligned := by decide
  obtain ⟨_, union, _, _, succeeds⟩ := features_act_independently source oracle _ _ agree
  obtain ⟨first, isFirst⟩ := succeeds aligned (.only .variableType)
  obtain ⟨second, isSecond⟩ := succeeds aligned (.only .parameterName)
  obtain ⟨built, isBuilt⟩ :=
    succeeds aligned (.join (.only .variableType) (.only .parameterName))
  have both := union built first second isBuilt isFirst isSecond
  refine ⟨agree, aligned, built, isBuilt, (both type).mpr (.inl ?_), (both name).mpr (.inr ?_)⟩
  · exact (mem_build_iff isFirst).mpr ⟨⟨declarator, [root]⟩,
      ⟨⟨.type, 4, 5, ⟨0, 4⟩, "x", none⟩, ⟨0, 4⟩, ⟨0, 5⟩, .colon⟩,
      .tail _ (.head _), by decide, "number", by decide, rfl, rfl, by decide, by decide⟩
  · exact (mem_build_iff isSecond).mpr ⟨⟨call, [declarator, root]⟩,
      ⟨⟨.parameterName, 8, 12, ⟨0, 10⟩, "", some 0⟩, ⟨0, 10⟩, ⟨0, 11⟩, .argument none⟩,
      .tail _ (.tail _ (.tail _ (.head _))), by decide, "count", by decide, rfl, rfl, by decide,
      by decide⟩

end Build

end Inlay
