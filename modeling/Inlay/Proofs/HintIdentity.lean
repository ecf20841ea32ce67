import Inlay.Proofs.HintOrder

/-!
When hints of a file stay apart.

Two hints of a file are told apart by their range and their labels. An edit keeps the labels and
moves all positions in its range to one place, so it makes two hints the same exactly if their
labels agree and it covers every end in which they differ. An edit that only puts text in never
does, one that takes text out may. Hints that are apart when they are installed stay apart through
every run in which no edit merges two of them.
-/

namespace Inlay

open Inlay.Text

namespace Edit

/-- The labels of the two hints agree, and so do their ranges but for ends that the edit covers. -/
def Merges (edit : Edit) (a b : Hint) : Prop :=
  a.before = b.before ∧ a.after = b.after ∧
    (a.start = b.start ∨ edit.Covers a.start ∧ edit.Covers b.start) ∧
    (a.stop = b.stop ∨ edit.Covers a.stop ∧ edit.Covers b.stop)

instance (edit : Edit) (a b : Hint) : Decidable (edit.Merges a b) :=
  inferInstanceAs (Decidable (_ ∧ _))

/-- The edit merges no two of the hints. -/
def Separates (edit : Edit) (hints : List Hint) : Prop :=
  hints.Pairwise fun a b => ¬ edit.Merges a b

instance (edit : Edit) (hints : List Hint) : Decidable (edit.Separates hints) :=
  inferInstanceAs (Decidable (hints.Pairwise _))

end Edit

namespace Hint

/-- No two of the hints agree in range and labels. -/
def Distinct (hints : List Hint) : Prop := (hints.map identity).Nodup

instance (hints : List Hint) : Decidable (Distinct hints) :=
  inferInstanceAs (Decidable (hints.map identity).Nodup)

theorem identity_eq_iff {a b : Hint} :
    a.identity = b.identity ↔
      a.start = b.start ∧ a.stop = b.stop ∧ a.before = b.before ∧ a.after = b.after := by
  simp [identity]

theorem identity_remap_eq_iff (edit : Edit) (a b : Hint) :
    (a.remap edit).identity = (b.remap edit).identity ↔ edit.Merges a b := by
  rw [identity_eq_iff, remap_start, remap_start, remap_stop, remap_stop, Edit.remap_eq_remap_iff,
    Edit.remap_eq_remap_iff, Edit.Merges]
  constructor
  · rintro ⟨start, stop, before, after⟩
    exact ⟨before, after, start, stop⟩
  · rintro ⟨before, after, start, stop⟩
    exact ⟨start, stop, before, after⟩

theorem distinct_remapAll_iff (edit : Edit) (hints : List Hint) :
    Distinct (remapAll edit hints) ↔ edit.Separates hints := by
  rw [Distinct, List.Nodup, remapAll, List.pairwise_map, List.pairwise_map, Edit.Separates]
  have apart : ∀ a b : Hint,
      (a.remap edit).identity ≠ (b.remap edit).identity ↔ ¬ edit.Merges a b :=
    fun a b => not_congr (identity_remap_eq_iff edit a b)
  simp only [apart]

end Hint

/-- An edit that takes nothing out covers one place only and leaves hints apart. -/
theorem Edit.separates_of_insertion {edit : Edit} {hints : List Hint}
    (inserts : edit.start = edit.stop) (distinct : Hint.Distinct hints) : edit.Separates hints := by
  have single : ∀ p q, edit.Covers p → edit.Covers q → p = q := by
    intro p q ⟨start, stop⟩ ⟨start', stop'⟩
    rw [← inserts] at stop stop'
    exact (le_antisymm stop start).trans (le_antisymm start' stop')
  refine (List.pairwise_map.mp distinct).imp ?_
  rintro a b different ⟨before, after, start, stop⟩
  apply different
  rw [Hint.identity_eq_iff]
  exact ⟨start.elim id fun both => single _ _ both.1 both.2,
    stop.elim id fun both => single _ _ both.1 both.2, before, after⟩

namespace Entry

/-- Each edit keeps the hints apart that it finds. -/
def Separates (entry : Entry) : List Edit → Prop
  | [] => True
  | edit :: rest =>
    (edit.normalize entry.text).Separates entry.hints ∧ Separates (entry.edit edit) rest

instance decidableSeparates : (entry : Entry) → (edits : List Edit) →
    Decidable (entry.Separates edits)
  | _, [] => .isTrue trivial
  | entry, edit :: rest =>
    have := decidableSeparates (entry.edit edit) rest
    inferInstanceAs (Decidable (_ ∧ _))

theorem edit_distinct_iff (entry : Entry) (edit : Edit) :
    Hint.Distinct (entry.edit edit).hints ↔ (edit.normalize entry.text).Separates entry.hints :=
  Hint.distinct_remapAll_iff _ _

theorem editAll_distinct {entry : Entry} {edits : List Edit} (distinct : Hint.Distinct entry.hints)
    (separate : entry.Separates edits) : Hint.Distinct (entry.editAll edits).hints := by
  induction edits generalizing entry with
  | nil => exact distinct
  | cons edit edits ih => exact ih ((edit_distinct_iff entry edit).mpr separate.1) separate.2

theorem change_distinct {entry : Entry} {edits : List Edit} (distinct : Hint.Distinct entry.hints)
    (separate : entry.isWaiting = false → entry.Separates edits) :
    Hint.Distinct (entry.change edits).hints := by
  unfold change
  split
  · exact distinct
  · next current => exact editAll_distinct distinct (separate (by simpa using current))

theorem replaceText_distinct {entry : Entry} (text : String)
    (distinct : Hint.Distinct entry.hints) : Hint.Distinct (entry.replaceText text).hints :=
  ((hints_replaceText entry text).map _).nodup distinct

end Entry

namespace Registry

/-- The edits that the operation applies keep the hints apart that they find. -/
def Operation.Separates (operation : Operation) (registry : Registry) : Prop :=
  match operation with
  | change path edits =>
    ∀ entry ∈ registry.entries, entry.path = path → entry.isWaiting = false →
      entry.Separates edits
  | load path text =>
    ∀ entry ∈ registry.entries, entry.path = path →
      Entry.Separates { entry.replaceText text with pending := [] } entry.pending
  | _ => True

/-- One operation keeps the hints of every entry apart. -/
theorem distinct_perform {registry : Registry} {operation : Operation}
    (distinct : ∀ entry ∈ registry.entries, Hint.Distinct entry.hints)
    (installs : operation.Installs Hint.Distinct) (separates : operation.Separates registry) :
    ∀ entry ∈ (registry.perform operation).entries, Hint.Distinct entry.hints := by
  cases operation with
  | opening path text =>
    exact forall_mem_ensure_modify distinct (fun _ => List.nodup_nil) fun entry distinct =>
      Entry.replaceText_distinct text distinct
  | load path text =>
    have apart := fun entry member => And.intro (distinct entry member) (separates entry member)
    refine forall_mem_modify apart ?_ fun _ _ both => both.1
    rintro entry here ⟨distinct, separate⟩
    exact Entry.editAll_distinct (Entry.replaceText_distinct text distinct) (separate here)
  | markReload path =>
    exact forall_mem_ensure_modify distinct (fun _ => List.nodup_nil) fun _ distinct => distinct
  | change path edits =>
    have apart := fun entry member => And.intro (distinct entry member) (separates entry member)
    refine forall_mem_modify (forall_mem_ensure apart ?_) ?_ fun _ _ both => both.1
    -- An entry that is registered by the operation waits for its text, so nothing is applied.
    · intro birth
      exact ⟨List.nodup_nil, fun _ current => by simp [Entry.isWaiting, Entry.new] at current⟩
    · rintro entry here ⟨distinct, separate⟩
      exact Entry.change_distinct distinct (separate here)
  | remove path => exact fun entry member => distinct entry (List.mem_filter.mp member).1
  | install path hints =>
    exact forall_mem_modify distinct (fun _ _ _ => installs) fun _ _ distinct => distinct

theorem distinct_of_arrives {past : List Operation} {registry : Registry}
    (arrives : Arrives (fun operation registry =>
      operation.Installs Hint.Distinct ∧ operation.Separates registry) past registry) :
    ∀ entry ∈ registry.entries, Hint.Distinct entry.hints := by
  induction arrives with
  | empty => simp [empty]
  | ensure path _ ih => exact forall_mem_ensure ih fun _ => List.nodup_nil
  | perform operation admitted _ ih => exact distinct_perform ih admitted.1 admitted.2

theorem hints_change_of_get? {registry : Registry} {path : String} {entry : Entry}
    (found : registry.get? path = some entry) (current : entry.isWaiting = false) (edit : Edit) :
    (registry.perform (.change path [edit])).hints path = (entry.edit edit).hints := by
  change (registry.change path [edit]).hints path = _
  rw [change, hints_ensure_modify _ _ _ (by simp), if_pos rfl, entryFor_of_get? found, Entry.change,
    current]
  rfl

/-- Hints that are apart when they are installed stay apart through every run in which no edit
merges two of them. The condition is exact for every edit that is applied, and an edit that takes
nothing out meets it. -/
theorem identities_distinct_while_separate (registry : Registry) :
    (∀ past, Arrives (fun operation registry =>
        operation.Installs Hint.Distinct ∧ operation.Separates registry) past registry →
      ∀ entry ∈ registry.entries, (entry.hints.map Hint.identity).Nodup) ∧
    (∀ path entry, registry.get? path = some entry → entry.isWaiting = false → ∀ edit : Edit,
      (((registry.perform (.change path [edit])).hints path).map Hint.identity).Nodup ↔
        (edit.normalize entry.text).Separates entry.hints) ∧
    (∀ (hints : List Hint) (edit : Edit), edit.start = edit.stop →
      (hints.map Hint.identity).Nodup → edit.Separates hints) := by
  refine ⟨fun past => distinct_of_arrives, ?_, fun _ _ => Edit.separates_of_insertion⟩
  intro path entry found current edit
  rw [hints_change_of_get? found current]
  exact Entry.edit_distinct_iff entry edit

/-- Two hints with the same label keep apart when the text between them is taken out. -/
theorem neighbours_stay_distinct :
    let first : Hint := ⟨"", ": T", ⟨0, 0⟩, ⟨0, 1⟩, false, by decide⟩
    let second : Hint := ⟨"", ": T", ⟨0, 3⟩, ⟨0, 4⟩, false, by decide⟩
    let opened := empty.perform (.opening "a.ts" "abcd")
    let decorated := opened.perform (.install "a.ts" [first, second])
    let edited := decorated.perform (.change "a.ts" [⟨⟨0, 1⟩, ⟨0, 3⟩, "", by decide⟩])
    edited.hints "a.ts" =
        [⟨"", ": T", ⟨0, 0⟩, ⟨0, 1⟩, false, by decide⟩,
          ⟨"", ": T", ⟨0, 1⟩, ⟨0, 2⟩, false, by decide⟩] ∧
      ∀ entry ∈ edited.entries, (entry.hints.map Hint.identity).Nodup := by
  intro first second opened decorated edited
  let admits := fun (operation : Operation) registry =>
    operation.Installs Hint.Distinct ∧ operation.Separates registry
  have start : Arrives admits [] empty := .empty
  have installed : Hint.Distinct [first, second] := by decide
  have separate : ∀ entry ∈ decorated.entries, entry.path = "a.ts" → entry.isWaiting = false →
      entry.Separates [⟨⟨0, 1⟩, ⟨0, 3⟩, "", by decide⟩] := by decide
  have arrives := ((start.perform (.opening "a.ts" "abcd") ⟨trivial, trivial⟩).perform
    (.install "a.ts" [first, second]) ⟨installed, trivial⟩).perform (.change "a.ts" _)
    ⟨trivial, separate⟩
  exact ⟨by decide, (identities_distinct_while_separate edited).1 _ arrives⟩

/-- When a range with two hints is taken out, hints with the same label become the same. -/
theorem deletion_merges_hints :
    ¬ ∀ (past : List Operation) (registry : Registry),
      Arrives (fun operation _ => operation.Installs Hint.Distinct) past registry →
      ∀ entry ∈ registry.entries, (entry.hints.map Hint.identity).Nodup := by
  intro all
  let first : Hint := ⟨"", ": T", ⟨0, 0⟩, ⟨0, 1⟩, false, by decide⟩
  let second : Hint := ⟨"", ": T", ⟨0, 1⟩, ⟨0, 2⟩, false, by decide⟩
  let past : List Operation :=
    [.opening "a.ts" "ab", .install "a.ts" [first, second],
      .change "a.ts" [⟨⟨0, 0⟩, ⟨0, 2⟩, "", by decide⟩]]
  have installed : Hint.Distinct [first, second] := by decide
  have arrives := Arrives.empty.run past (by simpa [past, Operation.Installs] using installed)
  have apart := all _ _ arrives
  revert apart
  decide

end Registry

end Inlay
