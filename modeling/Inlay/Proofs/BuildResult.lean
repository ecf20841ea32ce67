import Mathlib.Data.List.Chain
import Mathlib.Data.List.Forall2
import Inlay.Build.Result
import Inlay.Proofs.Sites

/-!
What the result of a build looks like.

Whatever is answered, a build of an aligned tree succeeds. Labels fit on one line and have no
blanks but single spaces. Of hints that agree in range and labels the first that the walk came to
is kept. The result is ordered by start, hints with a label in front first, and otherwise in the
order of the walk. Every hint has a label, and its range is one of the text.
-/

namespace Inlay

open Inlay.Text Inlay.Tree

/-! ## Labels -/

namespace Text

/-- The only blanks are spaces, and no two of them stand side by side. -/
def Spaced (text : List Char) : Prop :=
  (∀ c ∈ text, isBlank c → c = ' ') ∧ text.IsChain fun a b => a = ' ' → b ≠ ' '

instance (text : List Char) : Decidable (Spaced text) :=
  -- Only the characters of the text are looked at, not all that there are.
  have := List.decidableBAll (fun c => isBlank c → c = ' ') text
  inferInstanceAs (Decidable (_ ∧ _))

theorem Spaced.append {a b : List Char} (left : Spaced a) (right : Spaced b)
    (seam : a.getLast? = some ' ' → b.head? ≠ some ' ') : Spaced (a ++ b) := by
  refine ⟨?_, ?_⟩
  · intro c member
    exact (List.mem_append.mp member).elim (left.1 c) (right.1 c)
  · rw [List.isChain_append]
    refine ⟨left.2, right.2, ?_⟩
    rintro x last y first rfl rfl
    exact seam last first

/-- At least one character and no blanks. -/
def IsWord (text : List Char) : Prop := text ≠ [] ∧ ∀ c ∈ text, isBlank c = false

theorem isWord_singleton {c : Char} (plain : ¬ isBlank c) : IsWord [c] := by
  simpa [IsWord] using plain

theorem IsWord.cons {c : Char} {word : List Char} (plain : ¬ isBlank c) (isWord : IsWord word) :
    IsWord (c :: word) := by
  refine ⟨List.cons_ne_nil c word, ?_⟩
  rw [List.forall_mem_cons]
  exact ⟨by simpa using plain, isWord.2⟩

theorem isWord_of_mem_words {text word : List Char} (member : word ∈ words text) :
    IsWord word := by
  fun_induction words text generalizing word with
  | case1 => simp at member
  | case2 c rest blank ih => exact ih member
  | case3 c plain d tail first later blank eq ih =>
    simp only [eq, blank, if_true] at member
    rcases List.mem_cons.mp member with rfl | older
    · exact isWord_singleton plain
    · exact ih (eq ▸ older)
  | case4 c plain d tail first later solid eq ih =>
    simp only [eq, solid, if_false, Bool.false_eq_true] at member
    rcases List.mem_cons.mp member with rfl | older
    · exact (ih (eq ▸ List.mem_cons_self)).cons plain
    · exact ih (eq ▸ List.mem_cons_of_mem first older)
  | case5 c rest plain alone ih =>
    split at member
    · next d tail first later eq => exact (alone d tail first later rfl eq).elim
    · rcases List.mem_cons.mp member with rfl | older
      · exact isWord_singleton plain
      · exact ih older

theorem IsWord.spaced {text : List Char} (word : IsWord text) : Spaced text := by
  have solid : ∀ c ∈ text, c ≠ ' ' := by
    rintro c member rfl
    exact absurd (word.2 ' ' member) (by decide)
  refine ⟨fun c member blank => absurd blank (by simp [word.2 c member]), ?_⟩
  apply List.Pairwise.isChain
  apply List.pairwise_of_forall_mem_list
  intro a _ b later _
  exact solid b later

/-- A spaced text that does not begin with a space. -/
structure IsLine (text : List Char) : Prop where
  spaced : Spaced text
  begins : text.head? ≠ some ' '

theorem IsWord.isLine {text : List Char} (word : IsWord text) : IsLine text where
  spaced := word.spaced
  begins := by
    intro first
    exact absurd (word.2 ' ' (List.mem_of_head? first)) (by decide)

theorem isLine_intercalate {pieces : List (List Char)} (isWord : ∀ piece ∈ pieces, IsWord piece) :
    IsLine ([' '].intercalate pieces) := by
  induction pieces with
  | nil => exact ⟨⟨by simp, List.IsChain.nil⟩, by simp⟩
  | cons piece rest ih =>
    have first := isWord piece List.mem_cons_self
    have line := ih fun later member => isWord later (List.mem_cons_of_mem _ member)
    cases rest with
    | nil => simpa using first.isLine
    | cons next rest =>
      rw [List.intercalate_cons_cons]
      have front : Spaced (piece ++ [' ']) := by
        refine first.spaced.append (by decide) ?_
        intro last
        exact absurd (first.2 ' ' (List.mem_of_getLast? last)) (by decide)
      refine ⟨front.append line.spaced fun _ => line.begins, ?_⟩
      obtain ⟨c, word, rfl⟩ := List.exists_cons_of_ne_nil first.1
      simpa using first.isLine.begins

theorem isLine_singleLine (text : List Char) : IsLine (singleLine text) :=
  isLine_intercalate fun _ => isWord_of_mem_words

/-- A line between two pieces of text. -/
theorem IsLine.between {text : List Char} (line : IsLine text) {front back : List Char}
    (left : Spaced front) (right : Spaced back) (seam : back.head? ≠ some ' ') :
    Spaced (front ++ text ++ back) :=
  (left.append line.spaced fun _ => line.begins).append right fun _ => seam

end Text

namespace Build

theorem isLine_label {answer : Option String} {label : String}
    (shows : label? answer = some label) : IsLine label.toList := by
  obtain ⟨text, rfl, line⟩ := Option.bind_eq_some_iff.mp shows
  split at line
  · simp at line
  · obtain rfl := Option.some.inj line
    rw [String.toList_ofList]
    exact isLine_singleLine _

theorem labels_spaced {label : String} (line : IsLine label.toList) (wrapped : Bool)
    (shape : Shape) :
    Spaced (labels wrapped label shape).1.toList ∧
      Spaced (labels wrapped label shape).2.toList := by
  have between : ∀ front back : String, Spaced front.toList → Spaced back.toList →
      back.toList.head? ≠ some ' ' → Spaced (front ++ label ++ back).toList := by
    intro front back left right seam
    rw [String.toList_append, String.toList_append]
    exact line.between left right seam
  have colon : Spaced (": " ++ label).toList := by
    simpa using between ": " "" (by decide) (by decide) (by decide)
  have name : Spaced (label ++ ": ").toList := by
    simpa using between "" ": " (by decide) (by decide) (by decide)
  have none : Spaced "".toList := by decide
  have parenthesis : Spaced "(".toList := by decide
  cases shape with
  | colon => exact ⟨none, colon⟩
  | cast => exact ⟨between "<" ">" (by decide) (by decide) (by decide), none⟩
  | wrapped => exact ⟨parenthesis, between ": " ")" (by decide) (by decide) (by decide)⟩
  | returned bare =>
    rw [labels]
    split
    · exact ⟨parenthesis, by simpa using between "): " "" (by decide) (by decide) (by decide)⟩
    · exact ⟨none, colon⟩
  | argument reading => exact ⟨name, none⟩

theorem labels_nonempty (wrapped : Bool) (label : String) (shape : Shape) :
    (labels wrapped label shape).1 ≠ "" ∨ (labels wrapped label shape).2 ≠ "" := by
  cases shape with
  | colon | cast | wrapped | argument => simp [labels]
  | returned bare =>
    rw [labels]
    split <;> simp

/-! ## Hints as they are made -/

/-- The hint stands where the question asks, and its labels show an answer. -/
structure Answers (ask : Ask) (hint : Hint) : Prop where
  start : hint.start = ask.start
  stop : hint.stop = ask.stop
  shows : ∃ wrapped answer label, label? answer = some label ∧
    labels wrapped label ask.shape = (hint.before, hint.after)

theorem Answers.labelled {ask : Ask} {hint : Hint} (answers : Answers ask hint) :
    hint.before ≠ "" ∨ hint.after ≠ "" := by
  obtain ⟨wrapped, answer, label, _, same⟩ := answers.shows
  simpa only [same] using labels_nonempty wrapped label ask.shape

theorem Answers.spaced {ask : Ask} {hint : Hint} (answers : Answers ask hint) :
    Spaced hint.before.toList ∧ Spaced hint.after.toList := by
  obtain ⟨wrapped, answer, label, shows, same⟩ := answers.shows
  simpa only [same] using labels_spaced (isLine_label shows) wrapped ask.shape

theorem Answers.placed {ask : Ask} {hint : Hint} {text : String} (answers : Answers ask hint)
    (placed : ask.Placed text) :
    clampPosition text.toList hint.start = hint.start ∧
      clampPosition text.toList hint.stop = hint.stop := by
  rw [answers.start, answers.stop]
  exact ⟨placed.start, placed.stop⟩

theorem exists_hint (features : Features) (wrapped : Bool) {ask : Ask} (label : String)
    (ordered : ask.start ≤ ask.stop) : ∃ made, hint features wrapped ask label = .ok made :=
  ⟨⟨_, _, ask.start, ask.stop, isWarning features label ask.shape, ordered⟩, dif_pos ordered⟩

theorem answers_of_hint {features : Features} {wrapped : Bool} {ask : Ask}
    {answer : Option String} {label : String} {made : Hint} (shows : label? answer = some label)
    (isMade : hint features wrapped ask label = .ok made) : Answers ask made := by
  unfold hint Hint.make at isMade
  dsimp only at isMade
  split at isMade
  · obtain rfl := Except.ok.inj isMade
    exact ⟨rfl, rfl, wrapped, answer, label, shows, rfl⟩
  · cases isMade

/-- The questions of a site never fail. -/
theorem exists_siteHints (features : Features) (wrapped : Bool)
    {asked : List (Ask × Option String)} (ordered : ∀ pair ∈ asked, pair.1.start ≤ pair.1.stop) :
    ∃ hints, siteHints features wrapped asked = .ok hints := by
  induction asked generalizing wrapped with
  | nil => exact ⟨[], rfl⟩
  | cons pair rest ih =>
    obtain ⟨ask, answer⟩ := pair
    obtain ⟨first, later⟩ := List.forall_mem_cons.mp ordered
    rw [siteHints]
    split
    · exact ih wrapped later
    · next label shows =>
      split
      · exact ih wrapped later
      · obtain ⟨made, isMade⟩ := exists_hint features wrapped label first
        obtain ⟨hints, others⟩ := ih (ask.shape == .wrapped) later
        exact ⟨made :: hints, by rw [isMade, others]; rfl⟩

/-- Whatever a site shows answers one of its questions. -/
theorem answers_of_siteHints {features : Features} {wrapped : Bool}
    {asked : List (Ask × Option String)} {hints : List Hint}
    (made : siteHints features wrapped asked = .ok hints) :
    ∀ hint ∈ hints, ∃ pair ∈ asked, Answers pair.1 hint := by
  induction asked generalizing wrapped hints with
  | nil =>
    obtain rfl := Except.ok.inj made
    simp
  | cons pair rest ih =>
    obtain ⟨ask, answer⟩ := pair
    have later : ∀ {wrapped hints}, siteHints features wrapped rest = .ok hints →
        ∀ hint ∈ hints, ∃ pair ∈ (ask, answer) :: rest, Answers pair.1 hint := by
      intro wrapped hints made hint isHint
      obtain ⟨pair, known, answers⟩ := ih made hint isHint
      exact ⟨pair, List.mem_cons_of_mem _ known, answers⟩
    rw [siteHints] at made
    split at made
    · exact later made
    · next label shows =>
      split at made
      · exact later made
      · split at made
        · cases made
        · next first isMade =>
          cases others : siteHints features (ask.shape == .wrapped) rest with
          | error trouble => simp [others, Except.map] at made
          | ok hints' =>
            simp only [others, Except.map, Except.ok.injEq] at made
            subst made
            rw [List.forall_mem_cons]
            exact ⟨⟨(ask, answer), List.mem_cons_self, answers_of_hint shows isMade⟩, later others⟩

/-- The hints of the sites, one group after the other. -/
theorem exists_planHints (features : Features) {sites : List Site}
    (ordered : ∀ site ∈ sites, ∀ ask ∈ site, ask.start ≤ ask.stop)
    (answers : List (Option String)) :
    ∃ groups, planHints features sites answers = .ok groups.flatten ∧
      List.Forall₂ (fun site hints => ∀ hint ∈ hints, ∃ ask ∈ site, Answers ask hint) sites
        groups := by
  induction sites generalizing answers with
  | nil => exact ⟨[], rfl, .nil⟩
  | cons site rest ih =>
    have zipped : ∀ pair ∈ site.zip answers, pair.1.start ≤ pair.1.stop := fun pair member =>
      ordered site List.mem_cons_self pair.1 (List.of_mem_zip member).1
    obtain ⟨hints, eq⟩ := exists_siteHints features false zipped
    obtain ⟨groups, eq', later⟩ :=
      ih (fun site member => ordered site (List.mem_cons_of_mem _ member))
        (answers.drop site.length)
    refine ⟨hints :: groups, by rw [planHints, eq]; simp only [eq']; rfl, .cons ?_ later⟩
    intro hint member
    obtain ⟨pair, known, answers⟩ := answers_of_siteHints eq hint member
    exact ⟨pair.1, (List.of_mem_zip known).1, answers⟩

theorem exists_ask_of_mem {sites : List Site} {groups : List (List Hint)} {hint : Hint}
    (answered : List.Forall₂ (fun site hints => ∀ hint ∈ hints, ∃ ask ∈ site, Answers ask hint)
      sites groups)
    (member : hint ∈ groups.flatten) : ∃ site ∈ sites, ∃ ask ∈ site, Answers ask hint := by
  induction answered with
  | nil => simp at member
  | @cons site hints sites groups first later ih =>
    rcases List.mem_append.mp (List.flatten_cons ▸ member) with here | there
    · exact ⟨site, List.mem_cons_self, first hint here⟩
    · obtain ⟨site', isSite, asks⟩ := ih there
      exact ⟨site', List.mem_cons_of_mem _ isSite, asks⟩

/-! ## The first of each identity -/

theorem distinct_sublist (seen : List (Position × Position × String × String)) (hints : List Hint) :
    (distinct seen hints).Sublist hints := by
  fun_induction distinct seen hints with
  | case1 => exact List.Sublist.refl _
  | case2 seen hint rest known ih => exact ih.cons _
  | case3 seen hint rest new ih => exact ih.cons_cons _

/-- A hint is kept if it is the first with an identity that was not seen. -/
theorem mem_distinct_iff {seen : List (Position × Position × String × String)} {hints : List Hint}
    {hint : Hint} :
    hint ∈ distinct seen hints ↔
      hint.identity ∉ seen ∧ hints.find? (·.identity = hint.identity) = some hint := by
  fun_induction distinct seen hints with
  | case1 => simp
  | case2 seen first rest known ih =>
    rw [ih]
    refine and_congr_right fun new => ?_
    have different : first.identity ≠ hint.identity := by
      intro same
      exact new (same ▸ known)
    simp [different]
  | case3 seen first rest new ih =>
    rw [List.mem_cons, ih]
    by_cases same : first.identity = hint.identity
    · simp [same, same ▸ new, eq_comm]
    · have different : hint ≠ first := fun eq => same (eq ▸ rfl)
      simp [same, different, Ne.symm same]

theorem identity_distinct_nodup (seen : List (Position × Position × String × String))
    (hints : List Hint) : ((distinct seen hints).map Hint.identity).Nodup := by
  fun_induction distinct seen hints with
  | case1 => exact List.nodup_nil
  | case2 seen hint rest known ih => exact ih
  | case3 seen hint rest new ih =>
    rw [List.map_cons, List.nodup_cons]
    refine ⟨?_, ih⟩
    intro member
    obtain ⟨other, kept, same⟩ := List.mem_map.mp member
    exact (mem_distinct_iff.mp kept).1 (same ▸ List.mem_cons_self)

theorem idxOf_cons_of_mem_distinct {seen : List (Position × Position × String × String)}
    {first hint : Hint} {rest : List Hint} (known : first.identity ∈ seen)
    (kept : hint ∈ distinct seen rest) : (first :: rest).idxOf hint = rest.idxOf hint + 1 := by
  apply List.idxOf_cons_ne
  rintro rfl
  exact (mem_distinct_iff.mp kept).1 known

theorem idxOf_cons_pairwise {seen : List (Position × Position × String × String)} {first : Hint}
    {rest : List Hint} (known : first.identity ∈ seen)
    (order : (distinct seen rest).Pairwise fun a b => rest.idxOf a < rest.idxOf b) :
    (distinct seen rest).Pairwise fun a b =>
      (first :: rest).idxOf a < (first :: rest).idxOf b := by
  refine order.imp_of_mem fun isA isB before => ?_
  rw [idxOf_cons_of_mem_distinct known isA, idxOf_cons_of_mem_distinct known isB]
  exact Nat.add_lt_add_right before 1

/-- Hints are kept in the order in which they come first. -/
theorem distinct_pairwise (seen : List (Position × Position × String × String))
    (hints : List Hint) :
    (distinct seen hints).Pairwise fun a b => hints.idxOf a < hints.idxOf b := by
  fun_induction distinct seen hints with
  | case1 => exact List.Pairwise.nil
  | case2 seen first rest known ih => exact idxOf_cons_pairwise known ih
  | case3 seen first rest new ih =>
    have known : first.identity ∈ first.identity :: seen := List.mem_cons_self
    refine List.pairwise_cons.mpr ⟨fun later kept => ?_, idxOf_cons_pairwise known ih⟩
    rw [List.idxOf_cons_self, idxOf_cons_of_mem_distinct known kept]
    exact Nat.succ_pos _

/-! ## The order of the result -/

theorem precedes_iff {a b : Hint} :
    precedes a b ↔ a.start < b.start ∨ a.start = b.start ∧ (a.before = "" → b.before = "") := by
  simp [precedes, Decidable.imp_iff_not_or]

theorem precedes_trans (a b c : Hint) (first : precedes a b) (second : precedes b c) :
    precedes a c := by
  rw [precedes_iff] at *
  rcases first with before | ⟨same, front⟩
  · rcases second with before' | ⟨same', _⟩
    · exact .inl (before.trans before')
    · exact .inl (same' ▸ before)
  · rcases second with before' | ⟨same', front'⟩
    · exact .inl (same ▸ before')
    · exact .inr ⟨same.trans same', front' ∘ front⟩

theorem precedes_total (a b : Hint) : precedes a b || precedes b a := by
  rw [Bool.or_eq_true, precedes_iff, precedes_iff]
  rcases lt_trichotomy a.start b.start with before | same | behind
  · exact .inl (.inl before)
  · by_cases front : b.before = ""
    · exact .inl (.inr ⟨same, fun _ => front⟩)
    · exact .inr (.inr ⟨same.symm, fun empty => absurd empty front⟩)
  · exact .inr (.inl behind)

/-- Sorting leaves the order among hints alone that may stand in either order. -/
theorem filter_mergeSort {tied : Hint → Bool} (ties : ∀ a b, tied a → tied b → precedes a b)
    (hints : List Hint) : (hints.mergeSort precedes).filter tied = hints.filter tied := by
  have ordered : (hints.filter tied).Pairwise fun a b => precedes a b := by
    apply List.pairwise_of_forall_mem_list
    intro a isA b isB
    exact ties a b (List.mem_filter.mp isA).2 (List.mem_filter.mp isB).2
  have kept := (List.sublist_mergeSort precedes_trans precedes_total ordered
    List.filter_sublist).filter tied
  simp only [List.filter_filter, Bool.and_self] at kept
  have perm := (List.mergeSort_perm hints precedes).filter tied
  exact (kept.eq_of_length perm.length_eq.symm).symm

/-- Hints come by start, those with a label in front first, and then as they come in `made`. -/
def InOrder (made hints : List Hint) : Prop :=
  hints.Pairwise fun a b =>
    a.start < b.start ∨ a.start = b.start ∧
      (a.before ≠ "" ∧ b.before = "" ∨
        (a.before = "" ↔ b.before = "") ∧ made.idxOf a < made.idxOf b)

theorem inOrder_sorted (made : List Hint) :
    InOrder made ((distinct [] made).mergeSort precedes) := by
  rw [InOrder, List.pairwise_iff_forall_sublist]
  intro a b pair
  have sorted := List.pairwise_mergeSort precedes_trans precedes_total (distinct [] made)
  rcases precedes_iff.mp (List.pairwise_iff_forall_sublist.mp sorted pair)
    with before | ⟨same, front⟩
  · exact .inl before
  · refine .inr ⟨same, ?_⟩
    by_cases tie : a.before = "" ↔ b.before = ""
    · refine .inr ⟨tie, ?_⟩
      -- Among the hints that tie with the two, sorting has changed nothing.
      let tied : Hint → Bool := fun hint =>
        decide (hint.start = a.start ∧ (hint.before = "" ↔ a.before = ""))
      have ties : ∀ x y, tied x → tied y → precedes x y := by
        intro x y tiedX tiedY
        obtain ⟨start, front⟩ := of_decide_eq_true tiedX
        obtain ⟨start', front'⟩ := of_decide_eq_true tiedY
        exact precedes_iff.mpr (.inr ⟨start.trans start'.symm, fun empty =>
          front'.mpr (front.mp empty)⟩)
      have both : [a, b].filter tied = [a, b] := by simp [tied, same, tie]
      have kept := pair.filter tied
      rw [both, filter_mergeSort ties] at kept
      exact List.pairwise_iff_forall_sublist.mp (distinct_pairwise [] made)
        (kept.trans List.filter_sublist)
    · by_cases bare : a.before = ""
      · exact absurd ⟨front, fun _ => bare⟩ tie
      · refine .inl ⟨bare, ?_⟩
        by_contra other
        exact tie ⟨fun empty => absurd empty bare, fun empty => absurd empty other⟩

end Build

/-- What a build gives for a text, where `made` are the hints as the walk comes to them. -/
structure Built.WellFormed (text : String) (made : List Hint) (built : Built) : Prop where
  inOrder : Build.InOrder made built.hints
  distinct : (built.hints.map Hint.identity).Nodup
  /-- Of the hints that agree in range and labels the first is there. -/
  first : ∀ hint, hint ∈ built.hints ↔ made.find? (·.identity = hint.identity) = some hint
  labelled : ∀ hint ∈ built.hints, hint.before ≠ "" ∨ hint.after ≠ ""
  spaced : ∀ hint ∈ built.hints, Spaced hint.before.toList ∧ Spaced hint.after.toList
  ranged : ∀ hint ∈ built.hints, hint.start ≤ hint.stop ∧
    clampPosition text.toList hint.start = hint.start ∧
    clampPosition text.toList hint.stop = hint.stop

theorem Language.resolve_of_isSupported {path : String} (supported : isSupported path) :
    ∃ language, resolve none (some path) = .ok language := by
  obtain ⟨language, found⟩ := Option.isSome_iff_exists.mp supported
  have named : path ≠ "" := by
    rintro rfl
    exact absurd supported (by decide)
  have given : (some path).filter (· != "") = some path := by simp [Option.filter, named]
  refine ⟨language, ?_⟩
  rw [resolve, given]
  simp [ofPath, found]

/-- Builds succeed, and their results are well formed. For a file of a known language and a tree
whose nodes begin and end between characters, the walk makes a group of hints at each node from
whatever is answered, and the result holds the first of each identity, in order. In `build` the
answers are those of an oracle. -/
theorem build_result_well_formed (path text : String) (supported : Language.isSupported path) :
    ∃ language, Language.resolve none (some path) = .ok language ∧
      ∀ (root : Node) (version : Nat) (features : Features) (answers : List (Option String)),
        let source : Source := { path, text, language, root, version }
        source.Aligned → ∃ groups built,
          Build.planHints features (Plan.sites source features) answers = .ok groups.flatten ∧
          List.Forall₂ (fun cursor hints => ∀ hint ∈ hints,
            ∃ ask ∈ Plan.site source features cursor, Build.Answers ask hint)
            source.top.walk groups ∧
          Build.finish source features answers = .ok built ∧
          built.WellFormed text groups.flatten := by
  obtain ⟨language, resolved⟩ := Language.resolve_of_isSupported supported
  refine ⟨language, resolved, ?_⟩
  intro root version features answers source aligned
  have ordered : ∀ site ∈ Plan.sites source features, ∀ ask ∈ site, ask.start ≤ ask.stop :=
    fun site isSite ask asks => (aligned.placed isSite asks).ordered
  obtain ⟨groups, made, answered⟩ := Build.exists_planHints features ordered answers
  have result : ∀ hint, hint ∈ (Build.distinct [] groups.flatten).mergeSort Build.precedes ↔
      hint ∈ Build.distinct [] groups.flatten := fun hint => List.mem_mergeSort
  have origin : ∀ hint ∈ (Build.distinct [] groups.flatten).mergeSort Build.precedes,
      ∃ ask, ask.Placed text ∧ Build.Answers ask hint := by
    intro hint member
    obtain ⟨site, isSite, ask, asks, answers⟩ := Build.exists_ask_of_mem answered
      ((Build.distinct_sublist [] _).subset ((result hint).mp member))
    exact ⟨ask, aligned.placed isSite asks, answers⟩
  refine ⟨groups, ⟨_, source.hasErrors⟩, made, List.forall₂_map_left_iff.mp answered,
    by rw [Build.finish, made]; rfl, ?_⟩
  constructor
  case inOrder => exact Build.inOrder_sorted _
  case distinct =>
    exact ((List.mergeSort_perm _ _).map _).nodup_iff.mpr (Build.identity_distinct_nodup [] _)
  case first =>
    intro hint
    rw [result, Build.mem_distinct_iff]
    simp
  case labelled =>
    intro hint member
    obtain ⟨ask, _, answers⟩ := origin hint member
    exact answers.labelled
  case spaced =>
    intro hint member
    obtain ⟨ask, _, answers⟩ := origin hint member
    exact answers.spaced
  case ranged =>
    intro hint member
    obtain ⟨ask, placed, answers⟩ := origin hint member
    exact ⟨hint.ordered, answers.placed placed⟩

/-- A function with a bare parameter of two bytes. Its two hints share their range. -/
theorem arrow_result_well_formed :
    let node := fun kind named start stop fields children =>
      Node.mk ⟨kind, named, false, false, false, start, stop, fields⟩ children
    let root := node "program" true 0 7 []
      [node "arrow_function" true 0 7 []
        [node "identifier" true 0 2 ["parameter"] [], node "=>" false 3 5 [] [],
          node "number" true 6 7 ["body"] []]]
    let source : Source := ⟨"a.ts", "ü => 1", .typescript, root, 1⟩
    let made : List Hint :=
      [⟨"(", ": number)", ⟨0, 0⟩, ⟨0, 1⟩, false, by decide⟩,
        ⟨"", ": string | null", ⟨0, 0⟩, ⟨0, 1⟩, false, by decide⟩]
    Language.isSupported "a.ts" ∧ source.Aligned ∧ ∃ built,
      Build.finish source .standard [some "number", some " string\n|\tnull"] = .ok built ∧
        built.WellFormed "ü => 1" made := by
  intro node root source made
  have supported : Language.isSupported "a.ts" := by decide
  have aligned : source.Aligned := by decide
  obtain ⟨language, resolved, wellFormed⟩ := build_result_well_formed "a.ts" "ü => 1" supported
  obtain rfl : language = .typescript := Except.ok.inj (resolved.symm.trans (by decide))
  obtain ⟨groups, built, planned, _, finished, formed⟩ := wellFormed root 1 .standard
    [some "number", some " string\n|\tnull"] aligned
  have same : groups.flatten = made := Except.ok.inj (planned.symm.trans (by decide))
  exact ⟨supported, aligned, built, finished, same ▸ formed⟩

end Inlay
