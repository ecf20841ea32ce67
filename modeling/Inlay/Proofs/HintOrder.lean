import Inlay.Check.Record
import Inlay.Proofs.Placement

/-!
Hints keep their order.

An edit keeps the order of positions, whether its range exists in a text or not, and tells all
positions apart but those in its range, which become one. So hints that are installed in the order
of their starts stay in this order through every run of operations. Their labels stay as they are,
edits keep all of them, and replacing the text of a file as a whole leaves some out.

Computed coordinates could be negative and computed ranges could end before they start. The checked
forms of the operations compute with integers and refuse such results, and they never do.
-/

namespace Inlay

open Inlay.Text Inlay.Check

/-! ## Positions -/

/-- Every later position is reached by going on from an earlier one. -/
theorem Position.exists_after {p q : Position} (le : p ≤ q) : ∃ way, q = p.after way := by
  rw [Position.le_def] at le
  by_cases same : p.line = q.line
  · refine ⟨⟨0, q.character - p.character⟩, ?_⟩
    ext <;> simp only [after, if_true] <;> omega
  · refine ⟨⟨q.line - p.line, q.character⟩, ?_⟩
    have further : q.line - p.line ≠ 0 := by omega
    ext <;> simp only [after, further, if_false]
    omega

theorem Position.le_after (p way : Position) : p ≤ p.after way :=
  (after_le_after_iff p ⟨0, 0⟩ way).mpr (zero_le way)

namespace Edit

/-- The position lies in the range of the edit, ends included. -/
def Covers (edit : Edit) (p : Position) : Prop := edit.start ≤ p ∧ p ≤ edit.stop

instance (edit : Edit) (p : Position) : Decidable (edit.Covers p) :=
  inferInstanceAs (Decidable (_ ∧ _))

theorem remap_of_covers {edit : Edit} {p : Position} (covers : edit.Covers p) :
    edit.remap p = edit.newEnd :=
  remap_of_le_of_le covers.1 covers.2

/-- Positions that are not both in the range of an edit keep their order strictly. -/
theorem remap_lt_remap {edit : Edit} {p q : Position} (lt : p < q)
    (apart : ¬ (edit.Covers p ∧ edit.Covers q)) : edit.remap p < edit.remap q := by
  have newEnd : edit.start ≤ edit.newEnd := Position.le_after _ _
  rcases lt_or_ge p edit.start with before | start
  · rw [remap_of_lt before]
    rcases lt_or_ge q edit.start with before' | start'
    · rwa [remap_of_lt before']
    · apply lt_of_lt_of_le before
      rcases le_total q edit.stop with inside | behind
      · rwa [remap_of_covers ⟨start', inside⟩]
      · obtain ⟨way, rfl⟩ := Position.exists_after behind
        rw [remap_stop_after]
        exact newEnd.trans (Position.le_after _ _)
  · have behind : edit.stop < q := by
      by_contra inside
      have within := not_lt.mp inside
      exact apart ⟨⟨start, (le_of_lt lt).trans within⟩, start.trans (le_of_lt lt), within⟩
    obtain ⟨way, rfl⟩ := Position.exists_after (le_of_lt behind)
    rw [remap_stop_after]
    rcases le_total p edit.stop with inside | behind'
    · rw [remap_of_covers ⟨start, inside⟩]
      exact (Position.after_lt_after_iff edit.newEnd ⟨0, 0⟩ way).mpr
        ((Position.after_lt_after_iff edit.stop ⟨0, 0⟩ way).mp behind)
    · obtain ⟨way', rfl⟩ := Position.exists_after behind'
      rw [remap_stop_after, Position.after_lt_after_iff]
      exact (Position.after_lt_after_iff edit.stop way' way).mp lt

theorem remap_mono (edit : Edit) : Monotone edit.remap := by
  intro p q le
  rcases lt_or_eq_of_le le with lt | rfl
  · by_cases together : edit.Covers p ∧ edit.Covers q
    · rw [remap_of_covers together.1, remap_of_covers together.2]
    · exact le_of_lt (remap_lt_remap lt together)
  · exact le_refl _

/-- An edit brings two positions together only if both are in its range. -/
theorem remap_eq_remap_iff (edit : Edit) (p q : Position) :
    edit.remap p = edit.remap q ↔ p = q ∨ edit.Covers p ∧ edit.Covers q := by
  constructor
  · intro same
    by_contra apart
    obtain ⟨different, apart⟩ := not_or.mp apart
    rcases lt_or_gt_of_ne different with lt | gt
    · exact absurd same (ne_of_lt (remap_lt_remap lt apart))
    · exact absurd same.symm (ne_of_lt (remap_lt_remap gt fun both => apart both.symm))
  · rintro (rfl | ⟨left, right⟩)
    · rfl
    · rw [remap_of_covers left, remap_of_covers right]

end Edit

namespace Hint

/-- What is seen of a hint wherever it stands. -/
def shown (hint : Hint) : String × String × Bool := (hint.before, hint.after, hint.warning)

@[simp]
theorem remap_start (edit : Edit) (hint : Hint) :
    (hint.remap edit).start = edit.remap hint.start := rfl

/-- The end of a hint moves like any other position: it never has to wait for the start. -/
@[simp]
theorem remap_stop (edit : Edit) (hint : Hint) :
    (hint.remap edit).stop = edit.remap hint.stop := by
  have order : edit.remap hint.start ≤ edit.remap hint.stop := edit.remap_mono hint.ordered
  exact (Position.latest_eq_max _ _).trans (max_eq_right order)

/-- The hints come in the order of their starts. -/
def InOrder (hints : List Hint) : Prop := hints.Pairwise fun a b => a.start ≤ b.start

instance (hints : List Hint) : Decidable (InOrder hints) :=
  inferInstanceAs (Decidable (hints.Pairwise _))

theorem remapAll_inOrder {hints : List Hint} (edit : Edit) (order : InOrder hints) :
    InOrder (remapAll edit hints) := by
  rw [InOrder, remapAll, List.pairwise_map]
  exact order.imp fun le => edit.remap_mono le

theorem shown_remapAll (edit : Edit) (hints : List Hint) :
    (remapAll edit hints).map shown = hints.map shown := by
  rw [remapAll, List.map_map]
  rfl

/-- The hints are in order, and they show what some of the given ones show. -/
structure StemFrom (installed hints : List Hint) : Prop where
  order : InOrder hints
  shown : (hints.map shown).Sublist (installed.map Hint.shown)

theorem stemFrom_nil (installed : List Hint) : StemFrom installed [] :=
  ⟨List.Pairwise.nil, List.nil_sublist _⟩

end Hint

/-! ## Checked operations -/

/-- A position from coordinates that were computed. -/
def Check.computed (line character : Int) : Reading Position :=
  .ofChecked (positionOf (natural (.int line)) (natural (.int character)))

theorem Check.computed_natCast (line character : Nat) :
    computed line character = .ok ⟨line, character⟩ := by
  simp [computed, natural, integer, positionOf, Reading.ofChecked]

namespace Edit

/-- `Edit.normalize` with a check of the range. An edit that is clamped already is not built
anew. -/
def normalizeChecked (text : String) (edit : Edit) : Reading Edit :=
  let start := clampPosition text.toList edit.start
  let stop := clampPosition text.toList edit.stop
  if start = edit.start ∧ stop = edit.stop then .ok edit
  else ranged (make start (Position.latest start stop) edit.newText)

theorem normalizeChecked_eq (text : String) (edit : Edit) :
    edit.normalizeChecked text = .ok (edit.normalize text) := by
  simp only [normalizeChecked]
  split
  · next clamped =>
    have stop : (edit.normalize text).stop = edit.stop := by
      rw [normalize_stop, clamped.1, clamped.2, max_eq_right edit.ordered]
    have same : edit.normalize text = edit := by
      rw [Edit.mk.injEq]
      exact ⟨clamped.1, stop, rfl⟩
    rw [same]
  · rw [make, dif_pos (Position.le_latest_left _ _)]
    rfl

/-- `Edit.remap` with differences of integers for the ways from one place to another. -/
def remapChecked (edit : Edit) (p : Position) : Reading Position :=
  if p < edit.start then .ok p
  else if p ≤ edit.stop then .ok edit.newEnd
  else if p.line = edit.stop.line then
    computed edit.newEnd.line (edit.newEnd.character + p.character - edit.stop.character)
  else
    computed
      (p.line + ((edit.newEnd.line - edit.start.line) - (edit.stop.line - edit.start.line) : Int))
      p.character

theorem remapChecked_eq (edit : Edit) (p : Position) :
    edit.remapChecked p = .ok (edit.remap p) := by
  unfold remapChecked remap
  split
  · rfl
  · split
    · rfl
    · next behind =>
      rw [Position.le_def] at behind
      split
      · next same =>
        rw [← computed_natCast]
        congr 1
        omega
      · rw [← computed_natCast]
        congr 1
        omega

end Edit

/-- `Hint.remap` with a check of the range. A hint that stays where it is is not built anew. -/
def Hint.remapChecked (edit : Edit) (hint : Hint) : Reading Hint := do
  let start ← edit.remapChecked hint.start
  let stop ← edit.remapChecked hint.stop
  if start = hint.start ∧ stop = hint.stop then return hint
  else ranged (make hint.before hint.after start (Position.latest start stop) hint.warning)

theorem Hint.remapChecked_eq (edit : Edit) (hint : Hint) :
    hint.remapChecked edit = pure (hint.remap edit) := by
  rw [remapChecked, Edit.remapChecked_eq, Edit.remapChecked_eq]
  change (if edit.remap hint.start = hint.start ∧ edit.remap hint.stop = hint.stop then _
    else _) = _
  split
  · next still =>
    have same : hint.remap edit = hint := by
      rw [Hint.mk.injEq]
      exact ⟨rfl, rfl, still.1, (remap_stop edit hint).trans still.2, rfl⟩
    rw [same]
  · rw [make, dif_pos (Position.le_latest_left _ _)]
    rfl

namespace Entry

def editChecked (entry : Entry) (edit : Edit) : Reading Entry := do
  let edit ← edit.normalizeChecked entry.text
  let hints ← entry.hints.mapM (Hint.remapChecked edit)
  return { entry with text := edit.apply entry.text, hints }

theorem editChecked_eq (entry : Entry) (edit : Edit) :
    entry.editChecked edit = pure (entry.edit edit) := by
  have remaps : Hint.remapChecked (edit.normalize entry.text) =
      fun hint => pure (hint.remap (edit.normalize entry.text)) :=
    funext (Hint.remapChecked_eq _)
  rw [editChecked, Edit.normalizeChecked_eq]
  change (do let hints ← entry.hints.mapM (Hint.remapChecked (edit.normalize entry.text)); _) = _
  rw [remaps, List.mapM_pure]
  rfl

def editAllChecked (entry : Entry) (edits : List Edit) : Reading Entry :=
  edits.foldlM editChecked entry

theorem editAllChecked_eq (entry : Entry) (edits : List Edit) :
    entry.editAllChecked edits = pure (entry.editAll edits) := by
  have steps : editChecked = fun entry edit => pure (entry.edit edit) :=
    funext fun entry => funext (editChecked_eq entry)
  rw [editAllChecked, steps, List.foldlM_pure]
  rfl

def changeChecked (entry : Entry) (edits : List Edit) : Reading Entry :=
  if entry.isWaiting then return entry.change edits
  else return (← entry.editAllChecked edits).bump

def loadChecked (entry : Entry) (text : String) : Reading Entry :=
  { entry.replaceText text with pending := [] }.editAllChecked entry.pending

theorem loadChecked_eq (entry : Entry) (text : String) :
    entry.loadChecked text = pure (entry.load text) :=
  editAllChecked_eq _ _

theorem changeChecked_eq (entry : Entry) (edits : List Edit) :
    entry.changeChecked edits = pure (entry.change edits) := by
  rw [changeChecked, editAllChecked_eq, change]
  split <;> rfl

end Entry

namespace Registry

/-- Changes the entry of a path, unless the change is refused. -/
def modifyChecked (registry : Registry) (path : String) (change : Entry → Reading Entry) :
    Reading Registry := do
  let entries ← registry.entries.mapM fun entry =>
    if entry.path = path then change entry else return entry
  return { registry with entries }

theorem modifyChecked_eq (registry : Registry) (path : String) {checked : Entry → Reading Entry}
    {change : Entry → Entry} (passes : ∀ entry, checked entry = pure (change entry)) :
    registry.modifyChecked path checked = pure (registry.modify path change) := by
  have each : (fun entry : Entry => if entry.path = path then checked entry else pure entry) =
      fun entry => pure (if entry.path = path then change entry else entry) := by
    funext entry
    rw [passes]
    split <;> rfl
  rw [modifyChecked, each, List.mapM_pure]
  rfl

/-- `Registry.perform` with checks of all positions, ranges and hints that it computes. -/
def performChecked (registry : Registry) : Operation → Reading Registry
  | .change path edits => (registry.ensure path).modifyChecked path (·.changeChecked edits)
  | .load path text => registry.modifyChecked path (·.loadChecked text)
  | operation => return registry.perform operation

theorem performChecked_eq (registry : Registry) (operation : Operation) :
    registry.performChecked operation = pure (registry.perform operation) := by
  cases operation with
  | change path edits => exact modifyChecked_eq _ _ fun entry => entry.changeChecked_eq edits
  | load path text => exact modifyChecked_eq _ _ fun entry => entry.loadChecked_eq text
  | opening | markReload | remove | install => rfl

end Registry

/-! ## Entries -/

namespace Entry

theorem shown_editAll (entry : Entry) (edits : List Edit) :
    (entry.editAll edits).hints.map Hint.shown = entry.hints.map Hint.shown := by
  induction edits generalizing entry with
  | nil => rfl
  | cons edit edits ih => exact (ih (entry.edit edit)).trans (Hint.shown_remapAll _ _)

theorem shown_change (entry : Entry) (edits : List Edit) :
    (entry.change edits).hints.map Hint.shown = entry.hints.map Hint.shown := by
  unfold change
  split
  · rfl
  · exact shown_editAll entry edits

theorem hints_replaceText (entry : Entry) (text : String) :
    (entry.replaceText text).hints.Sublist entry.hints :=
  List.filter_sublist

theorem shown_load (entry : Entry) (text : String) :
    ((entry.load text).hints.map Hint.shown).Sublist (entry.hints.map Hint.shown) := by
  rw [load, shown_editAll]
  exact (hints_replaceText entry text).map _

theorem editAll_inOrder {entry : Entry} (edits : List Edit) (order : Hint.InOrder entry.hints) :
    Hint.InOrder (entry.editAll edits).hints := by
  induction edits generalizing entry with
  | nil => exact order
  | cons edit edits ih => exact ih (Hint.remapAll_inOrder _ order)

section

variable {entry : Entry} {installed : List Hint}

theorem change_stemFrom (stem : Hint.StemFrom installed entry.hints) (edits : List Edit) :
    Hint.StemFrom installed (entry.change edits).hints where
  order := by
    unfold change
    split
    · exact stem.order
    · exact editAll_inOrder edits stem.order
  shown := by
    rw [shown_change]
    exact stem.shown

theorem replaceText_stemFrom (stem : Hint.StemFrom installed entry.hints) (text : String) :
    Hint.StemFrom installed (entry.replaceText text).hints where
  order := stem.order.sublist (hints_replaceText entry text)
  shown := ((hints_replaceText entry text).map _).trans stem.shown

theorem load_stemFrom (stem : Hint.StemFrom installed entry.hints) (text : String) :
    Hint.StemFrom installed (entry.load text).hints where
  order := editAll_inOrder entry.pending (replaceText_stemFrom stem text).order
  shown := (shown_load entry text).trans stem.shown

end

end Entry

/-! ## Runs -/

namespace Registry

/-- What holds of every entry after a change of the entries of one path. -/
theorem forall_mem_modify {registry : Registry} {path : String} {change : Entry → Entry}
    {before after : Entry → Prop} (all : ∀ entry ∈ registry.entries, before entry)
    (changed : ∀ entry, entry.path = path → before entry → after (change entry))
    (kept : ∀ entry, entry.path ≠ path → before entry → after entry) :
    ∀ entry ∈ (registry.modify path change).entries, after entry := by
  intro entry member
  obtain ⟨old, known, rfl⟩ := List.mem_map.mp member
  split
  · next here => exact changed old here (all old known)
  · next elsewhere => exact kept old elsewhere (all old known)

theorem forall_mem_ensure {registry : Registry} {path : String} {holds : Entry → Prop}
    (all : ∀ entry ∈ registry.entries, holds entry) (new : ∀ birth, holds (.new path birth)) :
    ∀ entry ∈ (registry.ensure path).entries, holds entry := by
  intro entry member
  unfold ensure at member
  split at member
  · exact all entry member
  · rcases List.mem_append.mp member with known | added
    · exact all entry known
    · obtain rfl := List.mem_singleton.mp added
      exact new _

/-- A notification about a path registers it if it is not known, and changes its entry. -/
theorem forall_mem_ensure_modify {registry : Registry} {path : String} {change : Entry → Entry}
    {holds : Entry → Prop} (all : ∀ entry ∈ registry.entries, holds entry)
    (new : ∀ birth, holds (.new path birth))
    (changed : ∀ entry, holds entry → holds (change entry)) :
    ∀ entry ∈ ((registry.ensure path).modify path change).entries, holds entry :=
  forall_mem_modify (forall_mem_ensure all new) (fun entry _ => changed entry) fun _ _ => id

namespace Operation

/-- The hints that the operation installs, if it does, are such. -/
def Installs (such : List Hint → Prop) : Operation → Prop
  | install _ hints => such hints
  | _ => True

/-- The hints that were installed last for a path, if they were the given ones before. -/
def installed (operation : Operation) (path : String) (hints : List Hint) : List Hint :=
  match operation with
  | install other new => if other = path then new else hints
  | remove other => if other = path then [] else hints
  | _ => hints

end Operation

/-- The hints that were installed last for a path, none after it was removed. -/
def lastInstalled (path : String) (past : List Operation) : List Hint :=
  past.foldl (fun hints operation => operation.installed path hints) []

theorem lastInstalled_append (path : String) (past : List Operation) (operation : Operation) :
    lastInstalled path (past ++ [operation]) =
      operation.installed path (lastInstalled path past) := by
  rw [lastInstalled, List.foldl_append]
  rfl

/-- The registries to which operations lead that are admitted where they are performed. Paths may
be registered at any time. -/
inductive Arrives (admits : Operation → Registry → Prop) : List Operation → Registry → Prop
  | empty : Arrives admits [] .empty
  | ensure {past : List Operation} {registry : Registry} (path : String) :
      Arrives admits past registry → Arrives admits past (registry.ensure path)
  | perform {past : List Operation} {registry : Registry} (operation : Operation)
      (admitted : admits operation registry) :
      Arrives admits past registry →
        Arrives admits (past ++ [operation]) (registry.perform operation)

/-- Every list of operations goes on with a run, if what it installs is as it should be. -/
theorem Arrives.run {such : List Hint → Prop} {past : List Operation} {registry : Registry}
    (arrives : Arrives (fun operation _ => operation.Installs such) past registry)
    (later : List Operation) (installs : ∀ operation ∈ later, operation.Installs such) :
    Arrives (fun operation _ => operation.Installs such) (past ++ later)
      (later.foldl Registry.perform registry) := by
  induction later generalizing past registry with
  | nil => simpa using arrives
  | cons operation later ih =>
    rw [List.append_cons]
    exact ih (.perform operation (installs operation List.mem_cons_self) arrives)
      fun next member => installs next (List.mem_cons_of_mem _ member)

/-- The hints of every entry stem from those that are given for its path. -/
def StemFrom (registry : Registry) (given : String → List Hint) : Prop :=
  ∀ entry ∈ registry.entries, Hint.StemFrom (given entry.path) entry.hints

theorem stemFrom_perform {registry : Registry} {given : String → List Hint}
    {operation : Operation} (stem : registry.StemFrom given)
    (sorted : operation.Installs Hint.InOrder) :
    (registry.perform operation).StemFrom fun path => operation.installed path (given path) := by
  cases operation with
  | opening path text =>
    refine forall_mem_ensure_modify stem (fun _ => Hint.stemFrom_nil _) ?_
    intro entry stem
    exact Entry.replaceText_stemFrom stem text
  | load path text =>
    refine forall_mem_modify stem ?_ fun _ _ => id
    intro entry _ stem
    rw [Entry.load_path]
    exact Entry.load_stemFrom stem text
  | markReload path =>
    exact forall_mem_ensure_modify stem (fun _ => Hint.stemFrom_nil _) fun _ stem => stem
  | change path edits =>
    refine forall_mem_ensure_modify stem (fun _ => Hint.stemFrom_nil _) ?_
    intro entry stem
    rw [Entry.change_path]
    exact Entry.change_stemFrom stem edits
  | remove path =>
    intro entry member
    obtain ⟨known, elsewhere⟩ := List.mem_filter.mp member
    have other : path ≠ entry.path := Ne.symm (by simpa using elsewhere)
    simpa only [Operation.installed, if_neg other] using stem entry known
  | install path hints =>
    refine forall_mem_modify stem ?_ ?_
    · intro entry here _
      simp only [Operation.installed, if_pos here.symm]
      exact ⟨sorted, List.Sublist.refl _⟩
    · intro entry elsewhere stem
      simpa only [Operation.installed, if_neg (Ne.symm elsewhere)] using stem

theorem stemFrom_of_arrives {past : List Operation} {registry : Registry}
    (arrives : Arrives (fun operation _ => operation.Installs Hint.InOrder) past registry) :
    registry.StemFrom (lastInstalled · past) := by
  induction arrives with
  | empty => simp [StemFrom, empty]
  | ensure path _ ih => exact forall_mem_ensure ih fun _ => Hint.stemFrom_nil _
  | perform operation sorted _ ih =>
    have step := stemFrom_perform ih sorted
    simpa only [StemFrom, lastInstalled_append] using step

section

variable (registry : Registry) (path other : String)

theorem hints_ensure_modify {change : Entry → Entry}
    (keeps : ∀ entry, (change entry).path = entry.path) :
    ((registry.ensure path).modify path change).hints other =
      if other = path then (change (registry.entryFor path)).hints else registry.hints other := by
  rw [hints, get?_ensure_modify _ _ _ keeps]
  split <;> rfl

theorem hints_entryFor : (registry.entryFor path).hints = registry.hints path := by
  unfold entryFor hints
  cases registry.get? path <;> rfl

theorem shown_hints_change (edits : List Edit) :
    ((registry.change path edits).hints other).map Hint.shown =
      (registry.hints other).map Hint.shown := by
  rw [change, hints_ensure_modify _ _ _ (by simp)]
  split
  · next here => rw [Entry.shown_change, hints_entryFor, here]
  · rfl

theorem hints_opening_sublist (text : String) :
    ((registry.opening path text).hints other).Sublist (registry.hints other) := by
  rw [opening, hints_ensure_modify _ _ _ (by intro; rfl)]
  split
  · next here =>
    rw [here, ← hints_entryFor]
    exact Entry.hints_replaceText _ text
  · exact List.Sublist.refl _

theorem shown_hints_load_sublist (text : String) :
    (((registry.load path text).hints other).map Hint.shown).Sublist
      ((registry.hints other).map Hint.shown) := by
  rw [load, hints, hints, get?_modify _ _ _ (by simp)]
  split
  · cases registry.get? other with
    | none => exact List.Sublist.refl _
    | some entry => exact Entry.shown_load entry text
  · exact List.Sublist.refl _

end

/-- Hints that are installed in the order of their starts stay in this order wherever operations
lead. None ends before it starts, and they show what some of the hints show that were installed
last. Edits keep all hints, and a text that is opened or read leaves some out. No operation computes
a position, a range or a hint that a check refuses. -/
theorem hints_stay_in_order {past : List Operation} {registry : Registry}
    (arrives : Arrives (fun operation _ => operation.Installs Hint.InOrder) past registry) :
    (∀ entry ∈ registry.entries,
      entry.hints.Pairwise (fun a b => a.start ≤ b.start) ∧
      (∀ hint ∈ entry.hints, hint.start ≤ hint.stop) ∧
      (entry.hints.map Hint.shown).Sublist ((lastInstalled entry.path past).map Hint.shown)) ∧
    (∀ path other edits, ((registry.perform (.change path edits)).hints other).map Hint.shown =
      (registry.hints other).map Hint.shown) ∧
    (∀ path other text, ((registry.perform (.opening path text)).hints other).Sublist
      (registry.hints other)) ∧
    (∀ path other text, (((registry.perform (.load path text)).hints other).map Hint.shown).Sublist
      ((registry.hints other).map Hint.shown)) ∧
    (∀ operation, registry.performChecked operation = .ok (registry.perform operation)) := by
  refine ⟨?_, shown_hints_change registry, hints_opening_sublist registry,
    shown_hints_load_sublist registry, performChecked_eq registry⟩
  intro entry member
  have stem := stemFrom_of_arrives arrives entry member
  exact ⟨stem.order, fun hint _ => hint.ordered, stem.shown⟩

/-- Two hints overlap. An edit takes out the end of the first with the start of the second, and the
range of the next edit lies beyond the text. -/
theorem overlapping_hints_stay_in_order :
    let first : Hint := ⟨"", ": T", ⟨0, 0⟩, ⟨1, 1⟩, false, by decide⟩
    let second : Hint := ⟨"(", ": any)", ⟨0, 1⟩, ⟨1, 2⟩, true, by decide⟩
    let past : List Operation :=
      [.opening "a.ts" "ab\ncd", .install "a.ts" [first, second],
        .change "a.ts" [⟨⟨0, 1⟩, ⟨1, 1⟩, "", by decide⟩, ⟨⟨7, 0⟩, ⟨9, 9⟩, "\nx", by decide⟩]]
    let registry := past.foldl perform empty
    registry.hints "a.ts" =
        [⟨"", ": T", ⟨0, 0⟩, ⟨0, 1⟩, false, by decide⟩,
          ⟨"(", ": any)", ⟨0, 1⟩, ⟨1, 1⟩, true, by decide⟩] ∧
      ∀ entry ∈ registry.entries,
        entry.hints.Pairwise (fun a b => a.start ≤ b.start) ∧
        (∀ hint ∈ entry.hints, hint.start ≤ hint.stop) ∧
        (entry.hints.map Hint.shown).Sublist ((lastInstalled entry.path past).map Hint.shown) := by
  intro first second past registry
  have installed : Hint.InOrder [first, second] := by decide
  have arrives := Arrives.empty.run past (by simpa [past, Operation.Installs] using installed)
  exact ⟨by decide, (hints_stay_in_order arrives).1⟩

end Registry

end Inlay
