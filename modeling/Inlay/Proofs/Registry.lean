import Inlay.Registry
import Inlay.Proofs.Offset

/-!
What the operations on entries and on the registry leave alone, and what a lookup finds after
them.
-/

namespace Inlay

/-- Items that are told apart by a key are found by it. -/
theorem find?_of_nodup {Item Key : Type} [DecidableEq Key] {key : Item → Key} {items : List Item}
    {item : Item} (unique : (items.map key).Nodup) (member : item ∈ items) :
    items.find? (fun other => key other = key item) = some item := by
  induction items with
  | nil => simp at member
  | cons first rest ih =>
    rw [List.map_cons, List.nodup_cons] at unique
    rcases List.mem_cons.mp member with rfl | later
    · simp
    · have different : key first ≠ key item := by
        intro same
        exact unique.1 (same ▸ List.mem_map_of_mem later)
      simpa [List.find?_cons, different] using ih unique.2 later

namespace Entry

/-- Edits change nothing but the text and the hints of an entry. -/
theorem editAll_eq (entry : Entry) (edits : List Edit) :
    entry.editAll edits =
      { entry with
        text := Edit.applyAll entry.text edits
        hints := (entry.editAll edits).hints } := by
  induction edits generalizing entry with
  | nil => rfl
  | cons edit edits ih =>
    have first : (entry.edit edit).text = edit.apply entry.text :=
      Edit.apply_normalize entry.text edit
    calc entry.editAll (edit :: edits) = (entry.edit edit).editAll edits := rfl
      _ = _ := by
        rw [ih, first]
        rfl

section

variable (entry : Entry) (edits : List Edit) (text : String)

@[simp]
theorem editAll_path : (entry.editAll edits).path = entry.path := by rw [editAll_eq]

@[simp]
theorem editAll_birth : (entry.editAll edits).birth = entry.birth := by rw [editAll_eq]

@[simp]
theorem editAll_text : (entry.editAll edits).text = Edit.applyAll entry.text edits := by
  rw [editAll_eq]

@[simp]
theorem editAll_generation : (entry.editAll edits).generation = entry.generation := by
  rw [editAll_eq]

@[simp]
theorem editAll_dirty : (entry.editAll edits).dirty = entry.dirty := by rw [editAll_eq]

@[simp]
theorem editAll_loaded : (entry.editAll edits).loaded = entry.loaded := by rw [editAll_eq]

@[simp]
theorem editAll_opened : (entry.editAll edits).opened = entry.opened := by rw [editAll_eq]

@[simp]
theorem editAll_needsReload : (entry.editAll edits).needsReload = entry.needsReload := by
  rw [editAll_eq]

@[simp]
theorem editAll_pending : (entry.editAll edits).pending = entry.pending := by rw [editAll_eq]

/-- Text that was read, with the edits that waited for it. -/
theorem load_eq :
    entry.load text =
      { entry with
        text := Edit.applyAll text entry.pending
        hints := (entry.load text).hints
        loaded := true
        needsReload := false
        pending := [] } := by
  unfold load
  rw [editAll_eq]
  rfl

@[simp]
theorem load_path : (entry.load text).path = entry.path := by rw [load_eq]

@[simp]
theorem change_generation : (entry.change edits).generation = entry.generation + 1 := by
  unfold change
  split <;> simp [bump]

@[simp]
theorem change_dirty : (entry.change edits).dirty = true := by
  unfold change
  split <;> simp [bump]

@[simp]
theorem change_path : (entry.change edits).path = entry.path := by
  unfold change
  split <;> simp [bump]

@[simp]
theorem change_birth : (entry.change edits).birth = entry.birth := by
  unfold change
  split <;> simp [bump]

@[simp]
theorem change_opened : (entry.change edits).opened = entry.opened := by
  unfold change
  split <;> simp [bump]

end

end Entry

namespace Registry

variable {registry : Registry} {path other : String} {entry : Entry}

theorem path_of_get? (found : registry.get? path = some entry) : entry.path = path := by
  simpa using List.find?_some found

theorem get?_modify (registry : Registry) (path other : String) {change : Entry → Entry}
    (keeps : ∀ entry, (change entry).path = entry.path) :
    (registry.modify path change).get? other =
      if other = path then (registry.get? other).map change else registry.get? other := by
  have same : ∀ entry : Entry,
      (if entry.path = path then change entry else entry).path = entry.path := by
    intro entry
    split
    · exact keeps entry
    · rfl
  have lookup : (registry.modify path change).get? other = (registry.get? other).map fun entry =>
      if entry.path = path then change entry else entry := by
    simp only [modify, get?, List.find?_map, Function.comp_def, same]
  rw [lookup]
  cases found : registry.get? other with
  | none => simp
  | some entry =>
    simp only [Option.map_some, path_of_get? found]
    split <;> rfl

theorem get?_remove (registry : Registry) (path other : String) :
    (registry.remove path).get? other = if other = path then none else registry.get? other := by
  simp only [remove, get?, List.find?_filter]
  split
  · next same => simp [same]
  · next different =>
    congr 1
    funext entry
    by_cases here : entry.path = other
    · simp [here, different]
    · simp [here]

/-- The entry that a notification about a path finds, new if there was none. -/
def entryFor (registry : Registry) (path : String) : Entry :=
  (registry.get? path).getD (.new path registry.births)

theorem entryFor_of_get? (found : registry.get? path = some entry) :
    registry.entryFor path = entry := by
  simp [entryFor, found]

theorem get?_ensure (registry : Registry) (path other : String) :
    (registry.ensure path).get? other =
      if other = path then some (registry.entryFor path) else registry.get? other := by
  unfold ensure contains entryFor
  cases found : registry.get? path with
  | some entry =>
    simp only [Option.isSome_some, if_true, Option.getD_some]
    split
    · next same => rw [same, found]
    · rfl
  | none =>
    have appended : (⟨registry.entries ++ [.new path registry.births], registry.births + 1⟩ :
        Registry).get? other = (registry.get? other).or
          (if path = other then some (.new path registry.births) else none) := by
      simp [get?, List.find?_append, List.find?_singleton, Entry.new]
    simp only [Option.isSome_none, Bool.false_eq_true, if_false, Option.getD_none, appended]
    by_cases same : other = path
    · simp [same, found]
    · simp [same, Ne.symm same]

/-- A notification changes the entry of its path, and makes one if there was none. -/
theorem get?_ensure_modify (registry : Registry) (path other : String) {change : Entry → Entry}
    (keeps : ∀ entry, (change entry).path = entry.path) :
    ((registry.ensure path).modify path change).get? other =
      if other = path then some (change (registry.entryFor path)) else registry.get? other := by
  rw [get?_modify _ _ _ keeps, get?_ensure]
  split <;> rfl

/-- No path has two entries. -/
def Distinct (registry : Registry) : Prop := (registry.entries.map (·.path)).Nodup

theorem get?_of_mem (distinct : registry.Distinct) (member : entry ∈ registry.entries) :
    registry.get? entry.path = some entry :=
  find?_of_nodup distinct member

theorem distinct_modify {change : Entry → Entry} (keeps : ∀ entry, (change entry).path = entry.path)
    (distinct : registry.Distinct) : (registry.modify path change).Distinct := by
  have paths : (registry.modify path change).entries.map (·.path) =
      registry.entries.map (·.path) := by
    simp only [modify, List.map_map]
    apply List.map_congr_left
    intro entry _
    simp only [Function.comp_apply]
    split
    · exact keeps entry
    · rfl
  rw [Distinct, paths]
  exact distinct

theorem distinct_ensure (distinct : registry.Distinct) : (registry.ensure path).Distinct := by
  unfold ensure
  split
  · exact distinct
  · next absent =>
    have fresh : path ∉ registry.entries.map (·.path) := by
      intro member
      obtain ⟨entry, known, rfl⟩ := List.mem_map.mp member
      simp [contains, get?_of_mem distinct known] at absent
    rw [Distinct, List.map_append, List.nodup_append]
    refine ⟨distinct, by simp, ?_⟩
    intro known member new isNew
    obtain rfl : new = path := by simpa [Entry.new] using isNew
    rintro rfl
    exact fresh member

theorem distinct_remove (distinct : registry.Distinct) : (registry.remove path).Distinct :=
  (List.filter_sublist.map _).nodup distinct

theorem entryFor_cases (registry : Registry) (path : String) :
    (registry.get? path = none ∧ registry.entryFor path = .new path registry.births) ∨
      ∃ entry, registry.get? path = some entry ∧ registry.entryFor path = entry := by
  cases found : registry.get? path with
  | none => exact .inl ⟨rfl, by simp [entryFor, found]⟩
  | some entry => exact .inr ⟨entry, rfl, entryFor_of_get? found⟩

theorem births_ensure (registry : Registry) (path : String) :
    registry.births ≤ (registry.ensure path).births := by
  unfold ensure
  split
  · exact Nat.le_refl _
  · exact Nat.le_succ _

end Registry

end Inlay
