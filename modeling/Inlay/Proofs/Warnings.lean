import Inlay.Proofs.BuildResult
import Inlay.Proofs.Contribution

/-!
Which hints are warnings.

A hint is a warning exactly if warnings are on and its labels are those of the type any, in one of
the four forms in which a type can be shown. So whether it is one can be read off the labels, hints
that agree in range and labels are equal, and a build keeps every hint that is made: leaving out
repeated ones leaves out nothing.
-/

namespace Inlay

namespace Build

/-! ## Labels of the type any -/

/-- The labels in front of and behind a target whose type is any. -/
def anyLabels : List (String × String) :=
  [("", ": any"), ("<any>", ""), ("(", ": any)"), ("(", "): any")]

/-- The name of a parameter is never taken for a type. -/
theorem name_notMem_anyLabels (label : String) : (label ++ ": ", "") ∉ anyLabels := by
  have last : ∀ other : String, label ++ ": " = other → other.toList.getLast? = some ' ' := by
    rintro other rfl
    simp
  simp only [anyLabels, List.mem_cons, Prod.mk.injEq, List.not_mem_nil, or_false, not_or]
  refine ⟨?_, ?_, ?_, ?_⟩
  all_goals
    rintro ⟨same, _⟩
    exact absurd (last _ same) (by decide)

theorem labels_mem_anyLabels_iff (wrapped : Bool) (label : String) {shape : Shape}
    (typed : ∀ reading, shape ≠ .argument reading) :
    labels wrapped label shape ∈ anyLabels ↔ label = "any" := by
  have after : ∀ front : String, front ++ label = front ++ "any" ↔ label = "any" :=
    fun front => String.append_right_inj front
  have between : ∀ front back : String,
      front ++ label ++ back = front ++ "any" ++ back ↔ label = "any" :=
    fun front back => (String.append_left_inj back).trans (after front)
  have colon : ": " ++ label = ": any" ↔ label = "any" := after ": "
  have cast : "<" ++ label ++ ">" = "<any>" ↔ label = "any" := between "<" ">"
  have inside : ": " ++ label ++ ")" = ": any)" ↔ label = "any" := between ": " ")"
  have behind : "): " ++ label = "): any" ↔ label = "any" := after "): "
  -- The two forms with a parenthesis in front differ in the first character behind.
  have inside' : ": " ++ label ++ ")" ≠ "): any" := fun same => by
    simpa using congrArg (·.toList.head?) same
  have behind' : "): " ++ label ≠ ": any)" := fun same => by
    simpa using congrArg (·.toList.head?) same
  cases shape with
  | colon => simp [labels, anyLabels, colon]
  | cast => simp [labels, anyLabels, cast]
  | wrapped => simp [labels, anyLabels, inside, inside']
  | returned bare =>
    rw [labels]
    split
    · simp [anyLabels, behind, behind']
    · simp [anyLabels, colon]
  | argument reading => exact absurd rfl (typed reading)

/-- Whether a label is a warning shows in the text around it. -/
theorem isWarning_iff (features : Features) (wrapped : Bool) (label : String) (shape : Shape) :
    isWarning features label shape = true ↔
      features.enabled .highlightAny = true ∧ labels wrapped label shape ∈ anyLabels := by
  cases shape with
  | argument reading => simp [isWarning, labels, name_notMem_anyLabels]
  | colon | cast | wrapped | returned =>
    rw [labels_mem_anyLabels_iff wrapped label (by simp)]
    simp [isWarning]

/-! ## Hints that are warnings -/

/-- The hint is a warning if and only if warnings are on and it shows the type any. -/
def WarnsOfAny (features : Features) (hint : Hint) : Prop :=
  hint.warning = true ↔
    features.enabled .highlightAny = true ∧ (hint.before, hint.after) ∈ anyLabels

section

variable {source : Source} {features : Features} {answers : List (Option String)} {built : Built}

theorem Shows.warnsOfAny {wrapped : Bool} {ask : Ask} {label : String} {hint : Hint}
    (shows : Shows features wrapped ask label hint) : WarnsOfAny features hint := by
  rw [WarnsOfAny, shows.warning, shows.texts]
  exact isWarning_iff features wrapped label ask.shape

theorem WarnsOfAny.eq_of_identity {a b : Hint} (warns : WarnsOfAny features a)
    (warns' : WarnsOfAny features b) (same : a.identity = b.identity) : a = b := by
  obtain ⟨beforeA, afterA, startA, stopA, warningA, _⟩ := a
  obtain ⟨beforeB, afterB, startB, stopB, warningB, _⟩ := b
  simp only [Hint.identity, Prod.mk.injEq] at same
  obtain ⟨rfl, rfl, rfl, rfl⟩ := same
  have flags : warningA = warningB := Bool.eq_iff_iff.mpr (warns.trans warns'.symm)
  rw [flags]

/-- Of hints whose labels tell whether they are warnings, all are kept. -/
theorem mem_distinct_iff_mem {made : List Hint} {hint : Hint}
    (warns : ∀ hint ∈ made, WarnsOfAny features hint) : hint ∈ distinct [] made ↔ hint ∈ made := by
  refine ⟨fun kept => (distinct_sublist [] made).subset kept, fun isMade => ?_⟩
  rw [mem_distinct_iff]
  refine ⟨List.not_mem_nil, ?_⟩
  cases found : made.find? (·.identity = hint.identity) with
  | none =>
    have other := List.find?_eq_none.mp found hint isMade
    simp at other
  | some first =>
    have same : first.identity = hint.identity := by simpa using List.find?_some found
    have isFirst := warns first (List.mem_of_find?_eq_some found)
    rw [isFirst.eq_of_identity (warns hint isMade) same]

theorem sites_tidy : ∀ site ∈ Plan.sites source features, Plan.Tidy site := by
  intro site isSite
  obtain ⟨cursor, _, rfl⟩ := List.mem_map.mp isSite
  exact Plan.site_tidy

theorem warnsOfAny_of_mem {made : List Hint} {hint : Hint}
    (isMade : planHints features (Plan.sites source features) answers = .ok made)
    (member : hint ∈ made) : WarnsOfAny features hint := by
  obtain ⟨site, _, asked, _, label, _, shows⟩ := (mem_planHints_iff sites_tidy isMade).mp member
  exact shows.warnsOfAny

/-- Whatever is answered, a build of an aligned tree succeeds. -/
theorem exists_finish_of_aligned (aligned : source.Aligned) :
    ∃ built, finish source features answers = .ok built := by
  obtain ⟨_, isMade, _⟩ := exists_planHints features
    (fun _ isSite _ asked => (aligned.placed isSite asked).ordered) answers
  exact ⟨_, finish_eq_ok_iff.mpr ⟨_, isMade, rfl⟩⟩

/-- The hints of a file are what its sites add. -/
theorem mem_finish_iff (finished : finish source features answers = .ok built) {hint : Hint} :
    hint ∈ built.hints ↔
      ∃ site ∈ deal (Plan.sites source features) answers, Adds features site hint := by
  obtain ⟨made, isMade, rfl⟩ := finish_eq_ok_iff.mp finished
  rw [List.mem_mergeSort, mem_distinct_iff_mem fun _ => warnsOfAny_of_mem isMade,
    mem_planHints_iff sites_tidy isMade]

end

/-- Whatever is answered, a hint of a build is a warning if and only if warnings are on and its
labels show the type any. No hint that the walk makes is left out with its flag or replaced by one
with another: the build has exactly the hints that are made. -/
theorem warnings_show_any (source : Source) (features : Features)
    (answers : List (Option String)) (built : Built)
    (finished : finish source features answers = .ok built) :
    (∀ hint ∈ built.hints, hint.warning = true ↔
      features.enabled .highlightAny = true ∧ (hint.before, hint.after) ∈ anyLabels) ∧
    ∃ made, planHints features (Plan.sites source features) answers = .ok made ∧
      ∀ hint, hint ∈ built.hints ↔ hint ∈ made := by
  obtain ⟨made, isMade, rfl⟩ := finish_eq_ok_iff.mp finished
  have kept : ∀ hint, hint ∈ (distinct [] made).mergeSort precedes ↔ hint ∈ made := fun hint =>
    List.mem_mergeSort.trans (mem_distinct_iff_mem fun _ => warnsOfAny_of_mem isMade)
  exact ⟨fun hint shown => warnsOfAny_of_mem isMade ((kept hint).mp shown), made, isMade, kept⟩

/-- The type of a bare parameter is any, which is a warning. The function returns a list of any,
which is none. -/
theorem any_parameter_warns :
    let node := fun kind named start stop fields children =>
      Tree.Node.mk ⟨kind, named, false, false, false, start, stop, fields⟩ children
    let root := node "program" true 0 6 []
      [node "arrow_function" true 0 6 []
        [node "identifier" true 0 1 ["parameter"] [], node "=>" false 2 4 [] [],
          node "identifier" true 5 6 ["body"] []]]
    let source : Source := ⟨"a.ts", "a => b", .typescript, root, 1⟩
    let type : Hint := ⟨"(", ": any)", ⟨0, 0⟩, ⟨0, 1⟩, true, by decide⟩
    let result : Hint := ⟨"", ": any[]", ⟨0, 0⟩, ⟨0, 1⟩, false, by decide⟩
    ∃ built, finish source .standard [some " any\n", some "any[]"] = .ok built ∧
      (∀ hint, hint ∈ built.hints ↔ hint ∈ [type, result]) ∧
      ((type.before, type.after) ∈ anyLabels ∧ (result.before, result.after) ∉ anyLabels) := by
  intro node root source type result
  have isMade : planHints .standard (Plan.sites source .standard) [some " any\n", some "any[]"] =
      .ok [type, result] := by decide
  obtain ⟨built, finished⟩ : ∃ built,
      finish source .standard [some " any\n", some "any[]"] = .ok built :=
    ⟨_, finish_eq_ok_iff.mpr ⟨_, isMade, rfl⟩⟩
  obtain ⟨warns, made, isMade', kept⟩ := warnings_show_any source .standard _ built finished
  obtain rfl : made = [type, result] := Except.ok.inj (isMade'.symm.trans isMade)
  have shown := warns type ((kept type).mpr (.head _))
  have plain := warns result ((kept result).mpr (.tail _ (.head _)))
  have other : (result.before, result.after) ∉ anyLabels := fun any =>
    absurd (plain.mpr ⟨rfl, any⟩) (by decide)
  exact ⟨built, finished, kept, (shown.mp rfl).2, other⟩

end Build

end Inlay
