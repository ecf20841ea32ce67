import Inlay.Proofs.Warnings

/-!
From which question a build obtains a hint, and what becomes of the hints if questions are left
without an answer.

With an oracle that always answers a question in the same way, every hint of a build is obtained
from one of the questions. If the oracle fails on some of them, gives nothing or gives only blanks,
the hints that were obtained from the others stay. Only the type that a function returns takes over
the parentheses of a bare parameter whose own type is lost.
-/

namespace Inlay

open Inlay.Text Inlay.Tree

namespace Build

/-- The questions of a site with the answers of an oracle. -/
def answered (source : Source) (oracle : Oracle) (site : Site) : List (Ask × Option String) :=
  site.map fun ask => (ask, oracle source ask.query)

/-- A build obtains the hint from the question about the construct. -/
structure Obtains (source : Source) (features : Features) (oracle : Oracle) (construct : Cursor)
    (ask : Ask) (hint : Hint) : Prop where
  walked : construct ∈ source.top.walk
  asked : ask ∈ Plan.site source features construct
  shows : ∃ label, told? (ask, oracle source ask.query) = some label ∧
    Shows features (wraps (answered source oracle (Plan.site source features construct))) ask label
      hint

section

variable {source : Source} {features : Features} {oracle : Oracle} {built : Built}

theorem build_eq_finish (source : Source) (features : Features) (oracle : Oracle) :
    build source features oracle = finish source features
      ((Plan.sites source features).flatten.map fun ask => oracle source ask.query) := by
  rw [build, Plan.queries, List.map_map]
  rfl

theorem deal_answered (source : Source) (features : Features) (oracle : Oracle) :
    deal (Plan.sites source features)
      ((Plan.sites source features).flatten.map fun ask => oracle source ask.query) =
      source.top.walk.map fun construct =>
        answered source oracle (Plan.site source features construct) := by
  rw [deal_map, Plan.sites, List.map_map]
  rfl

theorem mem_build_iff (isBuilt : build source features oracle = .ok built) {hint : Hint} :
    hint ∈ built.hints ↔
      ∃ construct ask, Obtains source features oracle construct ask hint := by
  rw [build_eq_finish] at isBuilt
  rw [mem_finish_iff isBuilt, deal_answered]
  constructor
  · rintro ⟨site, isSite, asked, isAsked, shows⟩
    obtain ⟨construct, walked, rfl⟩ := List.mem_map.mp isSite
    obtain ⟨ask, isAsk, rfl⟩ := List.mem_map.mp isAsked
    exact ⟨construct, ask, walked, isAsk, shows⟩
  · rintro ⟨construct, ask, walked, isAsk, shows⟩
    exact ⟨_, List.mem_map_of_mem walked, _, List.mem_map_of_mem isAsk, shows⟩

theorem exists_build_iff :
    (∃ built, build source features oracle = .ok built) ↔
      ∀ construct ∈ source.top.walk, ∀ ask ∈ Plan.site source features construct,
        (told? (ask, oracle source ask.query)).isSome → ask.start ≤ ask.stop := by
  rw [build_eq_finish, exists_finish_iff, deal_answered]
  simp only [List.forall_mem_map, answered]

theorem exists_build_of_aligned (aligned : source.Aligned) :
    ∃ built, build source features oracle = .ok built :=
  exists_finish_of_aligned aligned

end

/-! ## Questions without an answer -/

/-- Nothing is answered but blanks. -/
def Silent (answer : Option String) : Prop :=
  ∀ text, answer = some text → ∀ c ∈ text.toList, isBlank c = true

theorem words_eq_nil {text : List Char} (blank : ∀ c ∈ text, isBlank c = true) :
    words text = [] := by
  induction text with
  | nil => rfl
  | cons c rest ih =>
    obtain ⟨first, later⟩ := List.forall_mem_cons.mp blank
    unfold words
    rw [if_pos first, ih later]

theorem label?_of_silent {answer : Option String} (silent : Silent answer) :
    label? answer = none := by
  cases answer with
  | none => rfl
  | some text => simp [label?, singleLine, words_eq_nil (silent text rfl)]

/-- One oracle answers as another does, but on the lost questions it fails or has nothing to say
but blanks. -/
structure Loses (source : Source) (oracle failing : Oracle) (lost : Set Query) : Prop where
  elsewhere : ∀ query ∉ lost, failing source query = oracle source query
  silent : ∀ query ∈ lost, Silent (failing source query)

theorem Loses.told_iff {source : Source} {oracle failing : Oracle} {lost : Set Query}
    (loses : Loses source oracle failing lost) {ask : Ask} {label : String} :
    told? (ask, failing source ask.query) = some label ↔
      ask.query ∉ lost ∧ told? (ask, oracle source ask.query) = some label := by
  by_cases isLost : ask.query ∈ lost
  · simp [told?, label?_of_silent (loses.silent _ isLost), isLost]
  · simp [loses.elsewhere _ isLost, isLost]

end Build

/-! ## Parentheses -/

/-- The question for the type of the bare parameter of a function. -/
def Plan.bareQuery? (source : Source) (construct : Cursor) : Option Query :=
  if construct.isFunction then
    (construct.field? "parameter").map fun parameter => (bareAsk source parameter).query
  else none

/-- The hint with parentheses of its own, if it has no label in front. -/
def Hint.parenthesized (hint : Hint) : Hint :=
  if hint.before = "" then { hint with before := "(", after := ")" ++ hint.after } else hint

namespace Build

/-- The question is for what a function returns whose bare parameter loses its type. -/
def Exposed (source : Source) (lost : Set Query) (construct : Cursor) (ask : Ask) : Prop :=
  ask.query.kind = .returnType ∧ ∃ query ∈ lost, Plan.bareQuery? source construct = some query

section

variable {source : Source} {features : Features} {oracle failing : Oracle} {lost : Set Query}
  {construct : Cursor} {ask : Ask} {label : String} {hint was : Hint}

theorem bareQuery?_of_wrapped (asked : ask ∈ Plan.site source features construct)
    (wrapped : ask.shape = .wrapped) : Plan.bareQuery? source construct = some ask.query := by
  rcases Plan.ask_cases asked with lone | ⟨isFunction, parameter, bare, rfl⟩ | ⟨_, shape, _⟩
  · exact absurd wrapped lone.unwrapped
  · simp [Plan.bareQuery?, isFunction, bare]
  · simp [shape] at wrapped

theorem kind_of_returned {bare : Bool} (asked : ask ∈ Plan.site source features construct)
    (returned : ask.shape = .returned bare) : ask.query.kind = .returnType := by
  rcases Plan.ask_cases asked with lone | ⟨_, parameter, _, rfl⟩ | ⟨_, _, kind⟩
  · exact absurd returned (lone.notReturned bare)
  · cases returned
  · exact kind

theorem Exposed.shape (exposed : Exposed source lost construct ask)
    (asked : ask ∈ Plan.site source features construct) : ask.shape = .returned true := by
  obtain ⟨kind, query, _, isBare⟩ := exposed
  rcases Plan.ask_cases asked with lone | ⟨_, parameter, _, rfl⟩ | ⟨isFunction, shape, _⟩
  · exact absurd kind lone.kind
  · cases kind
  · rw [Plan.bareQuery?, if_pos isFunction] at isBare
    obtain ⟨parameter, bare, _⟩ := Option.map_eq_some_iff.mp isBare
    rw [shape, bare]
    rfl

theorem wraps_answered_iff {site : Site} :
    wraps (answered source oracle site) = true ↔
      ∃ ask ∈ site, ask.shape = .wrapped ∧ ∃ label,
        told? (ask, oracle source ask.query) = some label := by
  simp [wraps, answered, Option.isSome_iff_exists]

theorem Loses.wraps_of_exposed (loses : Loses source oracle failing lost)
    (exposed : Exposed source lost construct ask) :
    wraps (answered source failing (Plan.site source features construct)) = false := by
  rw [Bool.eq_false_iff, Ne, wraps_answered_iff]
  rintro ⟨other, asked, wrapped, label, told⟩
  obtain ⟨_, query, isLost, isBare⟩ := exposed
  have same := (bareQuery?_of_wrapped asked wrapped).symm.trans isBare
  exact (loses.told_iff.mp told).1 (Option.some.inj same ▸ isLost)

theorem Loses.wraps_of_not_exposed (loses : Loses source oracle failing lost)
    (asked : ask ∈ Plan.site source features construct) (returned : ask.shape = .returned true)
    (safe : ¬ Exposed source lost construct ask) :
    wraps (answered source oracle (Plan.site source features construct)) =
      wraps (answered source failing (Plan.site source features construct)) := by
  have kept : ∀ other ∈ Plan.site source features construct, other.shape = .wrapped →
      other.query ∉ lost := fun other asked' wrapped isLost =>
    safe ⟨kind_of_returned asked returned, other.query, isLost,
      bareQuery?_of_wrapped asked' wrapped⟩
  rw [Bool.eq_iff_iff, wraps_answered_iff, wraps_answered_iff]
  refine exists_congr fun other => and_congr_right fun asked' => and_congr_right fun wrapped => ?_
  simp [loses.told_iff, kept other asked' wrapped]

theorem Shows.parenthesized {wrapped : Bool} (shows : Shows features wrapped ask label was)
    (returned : ask.shape = .returned true) :
    Shows features false ask label was.parenthesized := by
  have shown := shows.texts
  rw [returned, labels] at shown
  cases wrapped with
  | false =>
    have before : was.before = "(" := congrArg Prod.fst shown
    rwa [Hint.parenthesized, if_neg (by simp [before])]
  | true =>
    have before : was.before = "" := congrArg Prod.fst shown
    have after : was.after = ": " ++ label := congrArg Prod.snd shown
    rw [Hint.parenthesized, if_pos before]
    refine ⟨shows.start, shows.stop, ?_, shows.warning⟩
    rw [returned, labels, after, ← String.append_assoc]
    rfl

/-- What becomes of the hint that a question is answered with. -/
theorem Loses.shows_iff (loses : Loses source oracle failing lost)
    (asked : ask ∈ Plan.site source features construct)
    (shown : Shows features (wraps (answered source oracle (Plan.site source features construct)))
      ask label was) :
    Shows features (wraps (answered source failing (Plan.site source features construct)))
        ask label hint ↔
      Exposed source lost construct ask ∧ hint = was.parenthesized ∨
        ¬ Exposed source lost construct ask ∧ hint = was := by
  by_cases exposed : Exposed source lost construct ask
  · have regained := shown.parenthesized (exposed.shape asked)
    rw [loses.wraps_of_exposed exposed]
    simp only [exposed, true_and, not_true_eq_false, false_and, or_false]
    exact ⟨fun shows => shows.unique regained, fun same => same ▸ regained⟩
  · rw [← shows_congr fun returned => loses.wraps_of_not_exposed asked returned exposed]
    simp only [exposed, false_and, not_false_eq_true, true_and, false_or]
    exact ⟨fun shows => shows.unique shown, fun same => same ▸ shown⟩

theorem Loses.obtains_iff (loses : Loses source oracle failing lost) :
    Obtains source features failing construct ask hint ↔
      ask.query ∉ lost ∧ ∃ was, Obtains source features oracle construct ask was ∧
        (Exposed source lost construct ask ∧ hint = was.parenthesized ∨
          ¬ Exposed source lost construct ask ∧ hint = was) := by
  constructor
  · rintro ⟨walked, asked, label, told, shows⟩
    obtain ⟨kept, told⟩ := loses.told_iff.mp told
    obtain ⟨was, shown⟩ := exists_shows_iff.mpr (exists_shows_iff.mp ⟨hint, shows⟩)
    exact ⟨kept, was, ⟨walked, asked, label, told, shown⟩, (loses.shows_iff asked shown).mp shows⟩
  · rintro ⟨kept, was, ⟨walked, asked, label, told, shown⟩, becomes⟩
    exact ⟨walked, asked, label, loses.told_iff.mpr ⟨kept, told⟩,
      (loses.shows_iff asked shown).mpr becomes⟩

end

/-- An answer that fails costs its own label and no other. Let an oracle fail, or give nothing but
blanks, on a set of questions. Where the build succeeded, as it does for every aligned tree, it
still does. If none of the lost questions is for the type of a bare parameter, its hints are exactly
those that the build obtained from the other questions. In any case they are these, except that a
function whose bare parameter loses its type shows what it returns with parentheses of its own. -/
theorem silence_costs_own_label (source : Source) (features : Features) (oracle failing : Oracle)
    (lost : Set Query) (loses : Loses source oracle failing lost) :
    (source.Aligned → ∃ built, build source features oracle = .ok built) ∧
    ∀ built, build source features oracle = .ok built →
      (∀ hint, hint ∈ built.hints ↔
        ∃ construct ask, Obtains source features oracle construct ask hint) ∧
      ∃ left, build source features failing = .ok left ∧
        ((∀ construct ∈ source.top.walk, ∀ query ∈ lost,
            Plan.bareQuery? source construct ≠ some query) →
          ∀ hint, hint ∈ left.hints ↔
            ∃ construct ask, ask.query ∉ lost ∧
              Obtains source features oracle construct ask hint) ∧
        ∀ hint, hint ∈ left.hints ↔
          ∃ construct ask was, ask.query ∉ lost ∧
            Obtains source features oracle construct ask was ∧
            (Exposed source lost construct ask ∧ hint = was.parenthesized ∨
              ¬ Exposed source lost construct ask ∧ hint = was) := by
  refine ⟨exists_build_of_aligned, fun built isBuilt => ?_⟩
  have ordered := exists_build_iff.mp ⟨built, isBuilt⟩
  obtain ⟨left, isLeft⟩ : ∃ left, build source features failing = .ok left := by
    refine exists_build_iff.mpr fun construct walked ask asked isTold => ?_
    obtain ⟨label, told⟩ := Option.isSome_iff_exists.mp isTold
    exact ordered construct walked ask asked
      (Option.isSome_of_eq_some (loses.told_iff.mp told).2)
  have becomes : ∀ hint, hint ∈ left.hints ↔
      ∃ construct ask was, ask.query ∉ lost ∧
        Obtains source features oracle construct ask was ∧
        (Exposed source lost construct ask ∧ hint = was.parenthesized ∨
          ¬ Exposed source lost construct ask ∧ hint = was) := by
    intro hint
    simp only [mem_build_iff isLeft, loses.obtains_iff, exists_and_left]
  refine ⟨fun hint => mem_build_iff isBuilt, left, isLeft, fun others hint => ?_, becomes⟩
  have safe : ∀ construct ask, construct ∈ source.top.walk →
      ¬ Exposed source lost construct ask := by
    rintro construct ask walked ⟨_, query, isLost, isBare⟩
    exact others construct walked query isLost isBare
  rw [becomes]
  refine exists_congr fun construct => exists_congr fun ask => ?_
  constructor
  · rintro ⟨was, kept, obtains, ⟨exposed, _⟩ | ⟨_, rfl⟩⟩
    · exact absurd exposed (safe construct ask obtains.walked)
    · exact ⟨kept, obtains⟩
  · rintro ⟨kept, obtains⟩
    exact ⟨hint, kept, obtains, .inr ⟨safe construct ask obtains.walked, rfl⟩⟩

/-- Without the type of its bare parameter a function puts the parameter in parentheses itself. -/
theorem result_keeps_parentheses :
    let node := fun kind named start stop fields children =>
      Node.mk ⟨kind, named, false, false, false, start, stop, fields⟩ children
    let arrow := node "arrow_function" true 0 6 []
      [node "identifier" true 0 1 ["parameter"] [], node "=>" false 2 4 [] [],
        node "identifier" true 5 6 ["body"] []]
    let root := node "program" true 0 6 [] [arrow]
    let source : Source := ⟨"a.ts", "a => b", .typescript, root, 1⟩
    let oracle : Oracle := fun _ _ => some "number"
    let failing : Oracle := fun _ query => if query.kind = .type then some " \n" else some "number"
    let was : Hint := ⟨"", ": number", ⟨0, 0⟩, ⟨0, 1⟩, false, by decide⟩
    let result : Hint := ⟨"(", "): number", ⟨0, 0⟩, ⟨0, 1⟩, false, by decide⟩
    Loses source oracle failing {query | query.kind = .type} ∧ source.Aligned ∧
      ∃ built left, build source .standard oracle = .ok built ∧
        build source .standard failing = .ok left ∧ was ∈ built.hints ∧ result ∈ left.hints := by
  intro node arrow root source oracle failing was result
  have loses : Loses source oracle failing {query | query.kind = .type} := by
    constructor
    · intro query other
      exact if_neg other
    · intro query isType text answers
      obtain rfl : " \n" = text := Option.some.inj ((if_pos isType).symm.trans answers)
      exact List.all_eq_true.mp (by decide)
  have aligned : source.Aligned := by decide
  obtain ⟨succeeds, costs⟩ :=
    silence_costs_own_label source .standard oracle failing {query | query.kind = .type} loses
  obtain ⟨built, isBuilt⟩ := succeeds aligned
  obtain ⟨obtained, left, isLeft, _, becomes⟩ := costs built isBuilt
  let ask : Ask :=
    ⟨⟨.returnType, 0, 6, ⟨0, 0⟩, "", none⟩, ⟨0, 0⟩, ⟨0, 1⟩, .returned true⟩
  have obtains : Obtains source .standard oracle ⟨arrow, [root]⟩ ask was :=
    ⟨.tail _ (.head _), by decide, "number", by decide, rfl, rfl, by decide, by decide⟩
  have exposed : Exposed source {query | query.kind = .type} ⟨arrow, [root]⟩ ask :=
    ⟨rfl, ⟨.type, 0, 1, ⟨0, 0⟩, "a", none⟩, rfl, by decide⟩
  refine ⟨loses, aligned, built, left, isBuilt, isLeft, (obtained was).mpr ⟨_, ask, obtains⟩,
    (becomes result).mpr ⟨_, ask, was, ?_, obtains, .inl ⟨exposed, by decide⟩⟩⟩
  intro isType
  cases isType

end Build

end Inlay
