import Mathlib.Data.Set.List
import Inlay.Build.Result

/-!
What each question adds to a build.

The hints of a site are made one after the other, and the type of a bare parameter passes on that
the parameter has its parentheses. Only the question that comes last in its site looks at that, so
the hints of a site can be told question by question: each shows its own label, and whether the
parameter has its parentheses depends on the site as a whole. The hints of a file are those of its
sites, with the answers dealt out in order.
-/

namespace Inlay

open Inlay.Tree

/-! ## Shapes -/

namespace Plan

/-- The question has nothing to do with the parentheses of a bare parameter. -/
structure IsLone (ask : Ask) : Prop where
  unwrapped : ask.shape ≠ .wrapped
  notReturned : ∀ bare, ask.shape ≠ .returned bare
  kind : ask.query.kind ≠ .returnType

/-- Only the last question can be for what a function with a bare parameter returns, and then those
before it are for the type of the parameter. -/
def Tidy (asks : List Ask) : Prop :=
  asks.Pairwise fun a b =>
    a.shape ≠ .returned true ∧ (b.shape = .returned true → a.shape = .wrapped)

section

variable {source : Source} {features : Features} {cursor : Cursor} {ask : Ask}

theorem isLone_askType {shape : Shape} (target : Cursor) (shown : shape = .colon ∨ shape = .cast) :
    IsLone (askType source shape target) := by
  rcases shown with rfl | rfl <;> exact ⟨by simp [askType], by simp [askType], by simp [askType]⟩

theorem isLone_of_mem_types {targets : List Cursor}
    (asked : ask ∈ targets.map (askType source .colon)) : IsLone ask := by
  obtain ⟨target, _, rfl⟩ := List.mem_map.mp asked
  exact isLone_askType target (.inl rfl)

theorem isLone_of_mem_variableSite (asked : ask ∈ variableSite source features cursor) :
    IsLone ask := by
  unfold variableSite at asked
  split at asked
  · cases asked
  · next name _ =>
    dsimp only at asked
    split at asked
    · cases asked
    · obtain rfl := List.mem_singleton.mp (List.mem_ite_nil_right.mp asked).2
      exact isLone_askType name (.inl rfl)

theorem isLone_of_mem_propertySite (asked : ask ∈ propertySite source features cursor) :
    IsLone ask := by
  unfold propertySite at asked
  split at asked
  · cases asked
  · next name _ =>
    obtain rfl := List.mem_singleton.mp (List.mem_ite_nil_right.mp asked).2
    exact isLone_askType name (.inl rfl)

theorem isLone_of_mem_objectLiteralSite (asked : ask ∈ objectLiteralSite source features cursor) :
    IsLone ask := by
  obtain ⟨member, _, asks⟩ := List.mem_filterMap.mp (List.mem_ite_nil_right.mp asked).2
  unfold objectMemberAsk? at asks
  split at asks
  · obtain ⟨value, _, rfl⟩ := Option.map_eq_some_iff.mp asks
    exact isLone_askType value (.inr rfl)
  · split at asks
    · obtain rfl := Option.some.inj asks
      exact isLone_askType member (.inl rfl)
    · cases asks

theorem isLone_of_mem_callSite (asked : ask ∈ callSite source features cursor) : IsLone ask := by
  unfold callSite at asked
  split at asked
  · cases asked
  · obtain ⟨⟨argument, index⟩, _, rfl⟩ := List.mem_map.mp (List.mem_ite_nil_right.mp asked).2
    exact ⟨by simp [askArgument], by simp [askArgument], by simp [askArgument]⟩

/-- Functions apart, the questions about a node have nothing to do with each other. -/
theorem site_of_isFunction_or_isLone :
    (cursor.isFunction = true ∧ site source features cursor = functionSite source features cursor) ∨
      ∀ ask ∈ site source features cursor, IsLone ask := by
  unfold site
  split
  · exact .inr (by simp)
  split
  · exact .inr fun _ => isLone_of_mem_variableSite
  split
  · next isFunction => exact .inl ⟨isFunction, rfl⟩
  refine .inr ?_
  split
  · exact fun _ => isLone_of_mem_propertySite
  split
  · exact fun _ asked => isLone_of_mem_types (List.mem_ite_nil_right.mp asked).2
  split
  · exact fun _ asked => isLone_of_mem_types (List.mem_ite_nil_right.mp asked).2
  split
  · exact fun _ => isLone_of_mem_objectLiteralSite
  split
  · exact fun _ => isLone_of_mem_callSite
  · simp

/-- The question for the type of a bare parameter. -/
def bareAsk (source : Source) (parameter : Cursor) : Ask :=
  askType source .wrapped parameter.binding

theorem parameterAsks_sublist (source : Source) (features : Features) {parameter : Cursor}
    (bare : cursor.field? "parameter" = some parameter) :
    (parameterAsks source features cursor).Sublist [bareAsk source parameter] := by
  unfold parameterAsks Cursor.parameters
  simp only [bare, Option.isSome_some, if_true]
  split
  · exact (List.filter_sublist.trans (List.filter_sublist.map Cursor.binding)).map _
  · exact List.nil_sublist _

theorem eq_bareAsk_of_mem {parameter : Cursor} (bare : cursor.field? "parameter" = some parameter)
    (asked : ask ∈ parameterAsks source features cursor) : ask = bareAsk source parameter :=
  List.mem_singleton.mp ((parameterAsks_sublist source features bare).subset asked)

theorem isLone_of_mem_parameterAsks (listed : cursor.field? "parameter" = none)
    (asked : ask ∈ parameterAsks source features cursor) : IsLone ask := by
  obtain ⟨target, _, rfl⟩ := List.mem_map.mp (List.mem_ite_nil_right.mp asked).2
  exact isLone_askType target (.inl (by simp [listed]))

theorem returnAsk_cases (source : Source) (features : Features) (cursor : Cursor) :
    returnAsk source features cursor = [] ∨
      ∃ ask, returnAsk source features cursor = [ask] ∧
        ask.shape = .returned (cursor.field? "parameter").isSome ∧
        ask.query.kind = .returnType := by
  unfold returnAsk
  dsimp only
  split
  · exact .inl rfl
  · split
    · exact .inr ⟨_, rfl, rfl, rfl⟩
    · exact .inl rfl

theorem returned_of_mem (asked : ask ∈ returnAsk source features cursor) :
    ask.shape = .returned (cursor.field? "parameter").isSome ∧ ask.query.kind = .returnType := by
  rcases returnAsk_cases source features cursor with nothing | ⟨_, only, returned⟩
  · simp [nothing] at asked
  · obtain rfl := List.mem_singleton.mp (only ▸ asked)
    exact returned

/-- A question is a lone one, or for the type of a bare parameter, or for what a function
returns. -/
theorem ask_cases (asked : ask ∈ site source features cursor) :
    IsLone ask ∨
      (cursor.isFunction = true ∧
        ∃ parameter, cursor.field? "parameter" = some parameter ∧ ask = bareAsk source parameter) ∨
      (cursor.isFunction = true ∧ ask.shape = .returned (cursor.field? "parameter").isSome ∧
        ask.query.kind = .returnType) := by
  rcases site_of_isFunction_or_isLone with ⟨isFunction, isSite⟩ | isLone
  · rw [isSite] at asked
    rcases List.mem_append.mp asked with asked | asked
    · cases bare : cursor.field? "parameter" with
      | none => exact .inl (isLone_of_mem_parameterAsks bare asked)
      | some parameter =>
        exact .inr (.inl ⟨isFunction, parameter, rfl, eq_bareAsk_of_mem bare asked⟩)
    · exact .inr (.inr ⟨isFunction, returned_of_mem asked⟩)
  · exact .inl (isLone ask asked)

theorem tidy_of_ne {asks : List Ask} (none : ∀ ask ∈ asks, ask.shape ≠ .returned true) :
    Tidy asks := by
  apply List.pairwise_of_forall_mem_list
  intro a isA b isB
  exact ⟨none a isA, fun last => absurd last (none b isB)⟩

theorem functionSite_tidy : Tidy (functionSite source features cursor) := by
  cases bare : cursor.field? "parameter" with
  | none =>
    apply tidy_of_ne
    intro ask asked
    rcases List.mem_append.mp asked with asked | asked
    · exact (isLone_of_mem_parameterAsks bare asked).notReturned true
    · simp [(returned_of_mem asked).1, bare]
  | some parameter =>
    have wrapped : ∀ ask ∈ parameterAsks source features cursor, ask.shape = .wrapped :=
      fun ask asked => eq_bareAsk_of_mem bare asked ▸ rfl
    refine List.pairwise_append.mpr ⟨tidy_of_ne fun ask asked => ?_, ?_, fun a isA b _ => ?_⟩
    · simp [wrapped ask asked]
    · rcases returnAsk_cases source features cursor with nothing | ⟨_, only, _⟩
      · exact nothing ▸ List.Pairwise.nil
      · exact only ▸ List.pairwise_singleton _ _
    · simp [wrapped a isA]

theorem site_tidy : Tidy (site source features cursor) := by
  rcases site_of_isFunction_or_isLone with ⟨_, isSite⟩ | isLone
  · rw [isSite]
    exact functionSite_tidy
  · exact tidy_of_ne fun ask asked => (isLone ask asked).notReturned true

end

end Plan

/-! ## The hints of a site -/

namespace Build

/-- What is shown of the answer to a question, if anything. -/
def told? (asked : Ask × Option String) : Option String :=
  (label? asked.2).filter fun label => !isRedundant label asked.1.shape

/-- Whether a bare parameter gets its parentheses from one of the questions. -/
def wraps (site : List (Ask × Option String)) : Bool :=
  site.any fun asked => asked.1.shape == .wrapped && (told? asked).isSome

/-- The hint shows a label where and how the question asks. -/
structure Shows (features : Features) (wrapped : Bool) (ask : Ask) (label : String)
    (hint : Hint) : Prop where
  start : hint.start = ask.start
  stop : hint.stop = ask.stop
  texts : (hint.before, hint.after) = labels wrapped label ask.shape
  warning : hint.warning = isWarning features label ask.shape

/-- The hint is one that a site adds to the hints of a file. -/
def Adds (features : Features) (site : List (Ask × Option String)) (hint : Hint) : Prop :=
  ∃ asked ∈ site, ∃ label, told? asked = some label ∧
    Shows features (wraps site) asked.1 label hint

section

variable {features : Features} {wrapped : Bool} {asked : Ask × Option String}
  {rest site : List (Ask × Option String)} {label : String} {made : Hint} {hints : List Hint}

theorem hint_eq_ok_iff {ask : Ask} :
    hint features wrapped ask label = .ok made ↔ Shows features wrapped ask label made := by
  unfold hint Hint.make
  dsimp only
  split
  · next ordered =>
    rw [Except.ok.injEq]
    constructor
    · rintro rfl
      exact ⟨rfl, rfl, rfl, rfl⟩
    · rintro ⟨start, stop, shown, warning⟩
      have before := congrArg Prod.fst shown
      have after := congrArg Prod.snd shown
      cases made
      dsimp only at start stop warning before after
      subst start stop warning before after
      rfl
  · next reversed =>
    constructor
    · intro trouble
      cases trouble
    · intro shows
      exact absurd (shows.start ▸ shows.stop ▸ made.ordered) reversed

theorem Shows.unique {ask : Ask} {other : Hint} (shows : Shows features wrapped ask label made)
    (shows' : Shows features wrapped ask label other) : made = other :=
  Except.ok.inj ((hint_eq_ok_iff.mpr shows).symm.trans (hint_eq_ok_iff.mpr shows'))

theorem exists_shows_iff {ask : Ask} :
    (∃ made, Shows features wrapped ask label made) ↔ ask.start ≤ ask.stop := by
  constructor
  · rintro ⟨made, shows⟩
    exact shows.start ▸ shows.stop ▸ made.ordered
  · intro ordered
    exact ⟨⟨_, _, ask.start, ask.stop, _, ordered⟩, rfl, rfl, rfl, rfl⟩

theorem siteHints_of_silent (silent : told? asked = none) :
    siteHints features wrapped (asked :: rest) = siteHints features wrapped rest := by
  obtain ⟨ask, answer⟩ := asked
  rw [siteHints]
  split
  · rfl
  · next label shown =>
    have redundant : isRedundant label ask.shape = true := by
      simpa [told?, shown] using silent
    rw [if_pos redundant]

/-- What comes of a site whose first question has a label to show. -/
theorem siteHints_eq_ok_iff (told : told? asked = some label) :
    siteHints features wrapped (asked :: rest) = .ok hints ↔
      ∃ first others, Shows features wrapped asked.1 label first ∧
        siteHints features (asked.1.shape == .wrapped) rest = .ok others ∧
        hints = first :: others := by
  obtain ⟨ask, answer⟩ := asked
  obtain ⟨shown, fresh⟩ := Option.filter_eq_some_iff.mp told
  have fresh : isRedundant label ask.shape = false := by simpa using fresh
  rw [siteHints]
  simp only [shown, fresh, Bool.false_eq_true, if_false, ← hint_eq_ok_iff]
  cases hint features wrapped ask label with
  | error trouble => simp
  | ok first =>
    cases siteHints features (ask.shape == .wrapped) rest with
    | error trouble => simp [Except.map]
    | ok others => simp [Except.map, eq_comm]

/-- Parentheses matter only for what a function with a bare parameter returns. -/
theorem shows_congr {ask : Ask} {other : Bool}
    (same : ask.shape = .returned true → wrapped = other) :
    Shows features wrapped ask label made ↔ Shows features other ask label made := by
  have labels : labels wrapped label ask.shape = labels other label ask.shape := by
    cases shape : ask.shape with
    | colon | cast | wrapped | argument => rfl
    | returned bare =>
      cases bare with
      | false => rfl
      | true => rw [same shape]
  constructor
  · exact fun shows => ⟨shows.start, shows.stop, labels ▸ shows.texts, shows.warning⟩
  · exact fun shows => ⟨shows.start, shows.stop, labels ▸ shows.texts, shows.warning⟩

theorem wraps_cons :
    wraps (asked :: rest) =
      ((asked.1.shape == .wrapped && (told? asked).isSome) || wraps rest) := rfl

/-- The hints of a site, question by question. -/
theorem mem_siteHints_iff (tidy : Plan.Tidy (site.map Prod.fst))
    (isMade : siteHints features wrapped site = .ok hints) :
    made ∈ hints ↔ ∃ asked ∈ site, ∃ label, told? asked = some label ∧
      Shows features (wrapped || wraps site) asked.1 label made := by
  -- The parentheses that a question passes on are counted in what the site begins with.
  induction site generalizing wrapped hints with
  | nil =>
    obtain rfl := Except.ok.inj isMade
    simp
  | cons asked rest ih =>
    obtain ⟨ahead, tidy⟩ := List.pairwise_cons.mp tidy
    cases told : told? asked with
    | none =>
      rw [siteHints_of_silent told] at isMade
      rw [ih tidy isMade, wraps_cons]
      simp [told]
    | some label =>
      obtain ⟨first, others, shows, isRest, rfl⟩ := (siteHints_eq_ok_iff told).mp isMade
      rw [List.mem_cons, ih tidy isRest]
      simp only [List.mem_cons, exists_eq_or_imp]
      refine or_congr ?_ (exists_congr fun later => and_congr_right fun isLater =>
        exists_congr fun label' => and_congr_right fun told' => shows_congr fun last => ?_)
      · have own : Shows features wrapped asked.1 label made ↔
            Shows features (wrapped || wraps (asked :: rest)) asked.1 label made := by
          refine shows_congr fun last => ?_
          obtain rfl : rest = [] := by
            cases rest with
            | nil => rfl
            | cons next _ => exact absurd last (ahead next.1 List.mem_cons_self).1
          simp [wraps, last]
        simp only [told, Option.some.injEq, exists_eq_left', ← own]
        exact ⟨fun same => same ▸ shows, fun shown => shown.unique shows⟩
      · have wrapped := (ahead later.1 (List.mem_map_of_mem isLater)).2 last
        simp [wraps_cons, wrapped, told]

/-- The hints of a site are made if all that has to be shown has a range to be shown at. -/
theorem exists_siteHints_iff :
    (∃ hints, siteHints features wrapped site = .ok hints) ↔
      ∀ asked ∈ site, (told? asked).isSome → asked.1.start ≤ asked.1.stop := by
  induction site generalizing wrapped with
  | nil => simp [siteHints]
  | cons asked rest ih =>
    rw [List.forall_mem_cons]
    cases told : told? asked with
    | none => simp [siteHints_of_silent told, ih]
    | some label =>
      rw [← @ih (asked.1.shape == .wrapped)]
      simp only [siteHints_eq_ok_iff told, Option.isSome_some, forall_const,
        ← @exists_shows_iff features wrapped label]
      constructor
      · rintro ⟨_, first, others, shows, isMade, _⟩
        exact ⟨⟨first, shows⟩, others, isMade⟩
      · rintro ⟨⟨first, shows⟩, others, isMade⟩
        exact ⟨_, first, others, shows, isMade, rfl⟩

end

/-! ## The hints of a file -/

/-- The questions of each site with their answers, which are given for all sites in order. -/
def deal : List Site → List (Option String) → List (List (Ask × Option String))
  | [], _ => []
  | site :: rest, answers => site.zip answers :: deal rest (answers.drop site.length)

theorem deal_append (first rest : List Site) (answers : List (Option String)) :
    deal (first ++ rest) answers =
      deal first answers ++ deal rest (answers.drop first.flatten.length) := by
  induction first generalizing answers with
  | nil => simp [deal]
  | cons site first ih => simp [deal, ih, List.drop_drop]

/-- Answers that depend on the question alone go to the questions that they are for. -/
theorem deal_map (answer : Ask → Option String) (sites : List Site) :
    deal sites (sites.flatten.map answer) =
      sites.map fun site => site.map fun ask => (ask, answer ask) := by
  induction sites with
  | nil => rfl
  | cons site rest ih =>
    have front : site.zip (site.map answer ++ rest.flatten.map answer) =
        site.map fun ask => (ask, answer ask) := by
      have split := @List.zip_append _ _ site [] (site.map answer) (rest.flatten.map answer)
        (List.length_map answer).symm
      rwa [List.append_nil, List.zip_nil_left, List.append_nil, ← List.map_prod_left_eq_zip]
        at split
    have back : (site.map answer ++ rest.flatten.map answer).drop site.length =
        rest.flatten.map answer := List.drop_left' (List.length_map answer)
    rw [List.flatten_cons, List.map_append, deal, front, back, ih, List.map_cons]

theorem map_fst_zip_sublist (site : Site) (answers : List (Option String)) :
    ((site.zip answers).map Prod.fst).Sublist site := by
  induction site generalizing answers with
  | nil => simp
  | cons ask rest ih =>
    cases answers with
    | nil => simp
    | cons answer answers => simpa using ih answers

theorem tidy_of_mem_deal {sites : List Site} {answers : List (Option String)}
    {asked : List (Ask × Option String)} (tidy : ∀ site ∈ sites, Plan.Tidy site)
    (dealt : asked ∈ deal sites answers) : Plan.Tidy (asked.map Prod.fst) := by
  induction sites generalizing answers with
  | nil => cases dealt
  | cons site rest ih =>
    obtain ⟨first, later⟩ := List.forall_mem_cons.mp tidy
    rcases List.mem_cons.mp dealt with rfl | dealt
    · exact first.sublist (map_fst_zip_sublist site answers)
    · exact ih later dealt

section

variable {features : Features} {sites : List Site} {answers : List (Option String)}
  {made : List Hint} {hint : Hint}

/-- The hints of the sites are made site by site. -/
theorem planHints_eq_ok_iff :
    planHints features sites answers = .ok made ↔
      ∃ groups : List (List Hint),
        (deal sites answers).map (siteHints features false) = groups.map .ok ∧
          made = groups.flatten := by
  induction sites generalizing answers made with
  | nil => simp [planHints, deal, eq_comm]
  | cons site rest ih =>
    rw [planHints, deal, List.map_cons]
    cases siteHints features false (site.zip answers) with
    | error trouble =>
      constructor
      · intro isMade
        cases isMade
      · rintro ⟨_ | ⟨hints, groups⟩, each, _⟩ <;> simp at each
    | ok hints =>
      constructor
      · intro isMade
        cases others : planHints features rest (answers.drop site.length) with
        | error trouble => simp [others, Except.map] at isMade
        | ok later =>
          simp only [others, Except.map, Except.ok.injEq] at isMade
          obtain ⟨groups, each, rfl⟩ := ih.mp others
          exact ⟨hints :: groups, by rw [each, List.map_cons], isMade.symm⟩
      · rintro ⟨_ | ⟨first, groups⟩, each, rfl⟩
        · simp at each
        · obtain ⟨same, later⟩ := List.cons.inj each
          obtain rfl := Except.ok.inj same
          exact congrArg (Except.map (hints ++ ·)) (ih.mpr ⟨groups, later, rfl⟩)

/-- What is made for the sites is what each of them adds. -/
theorem mem_planHints_iff (tidy : ∀ site ∈ sites, Plan.Tidy site)
    (isMade : planHints features sites answers = .ok made) :
    hint ∈ made ↔ ∃ asked ∈ deal sites answers, Adds features asked hint := by
  obtain ⟨groups, each, rfl⟩ := planHints_eq_ok_iff.mp isMade
  have isGroup : ∀ hints, hints ∈ groups ↔
      ∃ asked ∈ deal sites answers, siteHints features false asked = .ok hints := by
    intro hints
    rw [← List.mem_map, each, List.mem_map]
    simp
  simp only [List.mem_flatten, isGroup]
  constructor
  · rintro ⟨hints, ⟨asked, dealt, isSite⟩, isHint⟩
    exact ⟨asked, dealt, (mem_siteHints_iff (tidy_of_mem_deal tidy dealt) isSite).mp isHint⟩
  · rintro ⟨asked, dealt, adds⟩
    have isOk : siteHints features false asked ∈ groups.map .ok :=
      each ▸ List.mem_map_of_mem dealt
    obtain ⟨hints, _, isSite⟩ := List.mem_map.mp isOk
    exact ⟨hints, ⟨asked, dealt, isSite.symm⟩,
      (mem_siteHints_iff (tidy_of_mem_deal tidy dealt) isSite.symm).mpr adds⟩

theorem exists_planHints_iff :
    (∃ made, planHints features sites answers = .ok made) ↔
      ∀ site ∈ deal sites answers, ∀ asked ∈ site,
        (told? asked).isSome → asked.1.start ≤ asked.1.stop := by
  have isRange : (∃ made, planHints features sites answers = .ok made) ↔
      (deal sites answers).map (siteHints features false) ∈ Set.range (List.map .ok) := by
    simp only [planHints_eq_ok_iff, Set.mem_range]
    constructor
    · rintro ⟨_, groups, each, _⟩
      exact ⟨groups, each.symm⟩
    · rintro ⟨groups, each⟩
      exact ⟨_, groups, each.symm, rfl⟩
  rw [isRange, Set.range_list_map, Set.mem_ofPred_eq, List.forall_mem_map]
  refine forall_congr' fun site => imp_congr_right fun _ => ?_
  rw [← @exists_siteHints_iff features false, Set.mem_range]
  simp only [eq_comm]

end

/-! ## The result of a build -/

theorem finish_eq_ok_iff {source : Source} {features : Features}
    {answers : List (Option String)} {built : Built} :
    finish source features answers = .ok built ↔
      ∃ made, planHints features (Plan.sites source features) answers = .ok made ∧
        built = ⟨(distinct [] made).mergeSort precedes, source.hasErrors⟩ := by
  unfold finish
  cases planHints features (Plan.sites source features) answers with
  | error trouble => simp [Except.map]
  | ok made => simp [Except.map, eq_comm]

/-- A build fails only if a label would have to be shown at a range that ends before it starts. -/
theorem exists_finish_iff {source : Source} {features : Features}
    {answers : List (Option String)} :
    (∃ built, finish source features answers = .ok built) ↔
      ∀ site ∈ deal (Plan.sites source features) answers, ∀ asked ∈ site,
        (told? asked).isSome → asked.1.start ≤ asked.1.stop := by
  rw [← @exists_planHints_iff features]
  simp only [finish_eq_ok_iff]
  constructor
  · rintro ⟨_, made, isMade, _⟩
    exact ⟨made, isMade⟩
  · rintro ⟨made, isMade⟩
    exact ⟨_, made, isMade, rfl⟩

end Build

end Inlay
