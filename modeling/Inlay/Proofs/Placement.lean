import Inlay.Proofs.Registry
import Inlay.Proofs.Remap

/-!
Hints keep to the places of their text.

A hint is placed if both its ends are positions that clamping leaves alone. Replacing a text as a
whole drops the hints that are not placed, and an edit moves them along. Whatever is done to a
registry, its hints stay placed as long as every edit is seamless where it is applied. The
condition is exact: an edit that is not seamless displaces a hint at the end of the text.
-/

namespace Inlay

open Inlay.Text

/-- Both ends of the hint are positions of the text. -/
def Hint.Placed (text : String) (hint : Hint) : Prop :=
  clampPosition text.toList hint.start = hint.start ∧
    clampPosition text.toList hint.stop = hint.stop

instance (text : String) (hint : Hint) : Decidable (hint.Placed text) :=
  inferInstanceAs (Decidable (_ ∧ _))

namespace Hint

theorem placed_of_fits {text : String} {hint : Hint} (fits : hint.fits text) :
    hint.Placed text := by
  simp only [Hint.fits, Bool.and_eq_true, decide_eq_true_eq] at fits
  exact ⟨fits.1.2, fits.2⟩

theorem remap_placed {edit : Edit} {text : String} {hint : Hint}
    (normalized : edit.normalize text = edit) (seamless : edit.Seamless text)
    (placed : hint.Placed text) : (hint.remap edit).Placed (edit.apply text) := by
  have keeps := (Edit.remap_places_iff normalized).mpr seamless
  have start := keeps hint.start placed.1
  have stop := keeps hint.stop placed.2
  refine ⟨start, ?_⟩
  have latest : (hint.remap edit).stop = max (edit.remap hint.start) (edit.remap hint.stop) :=
    Position.latest_eq_max _ _
  rcases max_choice (edit.remap hint.start) (edit.remap hint.stop) with first | second
  · rw [latest, first, start]
  · rw [latest, second, stop]

/-- An edit that is not seamless displaces some hint. -/
theorem exists_displaced {edit : Edit} {text : String} (normalized : edit.normalize text = edit)
    (joined : ¬ edit.Seamless text) :
    ∃ hint : Hint, hint.Placed text ∧ ¬ (hint.remap edit).Placed (edit.apply text) := by
  by_contra none
  apply joined
  rw [← Edit.remap_places_iff normalized]
  intro p place
  by_contra displaced
  apply none
  exact ⟨⟨"", ":", p, p, false, Position.le_refl p⟩, ⟨place, place⟩, fun moved => displaced moved.1⟩

end Hint

/-- Each edit is seamless in the text to which it is applied. -/
def Edit.SeamlessAll (text : String) : List Edit → Prop
  | [] => True
  | edit :: rest => (edit.normalize text).Seamless text ∧ SeamlessAll (edit.apply text) rest

instance Edit.decidableSeamlessAll : (text : String) → (edits : List Edit) →
    Decidable (Edit.SeamlessAll text edits)
  | _, [] => .isTrue trivial
  | text, edit :: rest =>
    have := decidableSeamlessAll (edit.apply text) rest
    inferInstanceAs (Decidable (_ ∧ _))

def Entry.Placed (entry : Entry) : Prop := ∀ hint ∈ entry.hints, hint.Placed entry.text

namespace Entry

theorem edit_placed {entry : Entry} {edit : Edit} (placed : entry.Placed)
    (seamless : (edit.normalize entry.text).Seamless entry.text) : (entry.edit edit).Placed := by
  intro hint member
  obtain ⟨old, known, rfl⟩ := List.mem_map.mp member
  exact Hint.remap_placed (Edit.normalize_normalize entry.text edit) seamless (placed old known)

theorem editAll_placed {entry : Entry} {edits : List Edit} (placed : entry.Placed)
    (seamless : Edit.SeamlessAll entry.text edits) : (entry.editAll edits).Placed := by
  induction edits generalizing entry with
  | nil => exact placed
  | cons edit edits ih =>
    refine ih (edit_placed placed seamless.1) ?_
    have text : (entry.edit edit).text = edit.apply entry.text :=
      Edit.apply_normalize entry.text edit
    rw [text]
    exact seamless.2

/-- An edit keeps every choice of placed hints placed exactly if it is seamless. -/
theorem edit_placed_iff (entry : Entry) (edit : Edit) :
    (∀ hints : List Hint, (∀ hint ∈ hints, hint.Placed entry.text) →
      ({ entry with hints }.edit edit).Placed) ↔
      (edit.normalize entry.text).Seamless entry.text := by
  constructor
  · intro keeps
    by_contra joined
    obtain ⟨hint, placed, displaced⟩ :=
      Hint.exists_displaced (Edit.normalize_normalize entry.text edit) joined
    apply displaced
    refine keeps [hint] (by simpa using placed) _ ?_
    exact List.mem_map_of_mem (List.mem_singleton_self hint)
  · intro seamless hints placed
    exact edit_placed placed seamless

theorem replaceText_placed (entry : Entry) (text : String) : (entry.replaceText text).Placed := by
  intro hint member
  exact Hint.placed_of_fits (List.mem_filter.mp member).2

theorem load_placed {entry : Entry} {text : String}
    (seamless : Edit.SeamlessAll text entry.pending) : (entry.load text).Placed :=
  editAll_placed (replaceText_placed entry text) seamless

theorem change_placed {entry : Entry} {edits : List Edit} (placed : entry.Placed)
    (seamless : entry.isWaiting = false → Edit.SeamlessAll entry.text edits) :
    (entry.change edits).Placed := by
  unfold change
  split
  · exact placed
  · next current => exact editAll_placed placed (seamless (by simpa using current))

end Entry

namespace Registry

/-- What is done to a registry. -/
inductive Operation
  | opening (path text : String)
  | load (path text : String)
  | markReload (path : String)
  | change (path : String) (edits : List Edit)
  | remove (path : String)
  /-- New hints take the place of the old ones. -/
  | install (path : String) (hints : List Hint)

def perform (registry : Registry) : Operation → Registry
  | .opening path text => registry.opening path text
  | .load path text => registry.load path text
  | .markReload path => registry.markReload path
  | .change path edits => registry.change path edits
  | .remove path => registry.remove path
  | .install path hints => registry.modify path fun entry => { entry with hints }

namespace Operation

/-- Hints are installed only where they are placed. -/
def Allowed (operation : Operation) (registry : Registry) : Prop :=
  match operation with
  | install path hints =>
    ∀ entry, registry.get? path = some entry → ∀ hint ∈ hints, hint.Placed entry.text
  | _ => True

/-- The edits that the operation applies are seamless. -/
def Seamless (operation : Operation) (registry : Registry) : Prop :=
  match operation with
  | change path edits =>
    ∀ entry, registry.get? path = some entry → entry.isWaiting = false →
      Edit.SeamlessAll entry.text edits
  | load path text =>
    ∀ entry, registry.get? path = some entry → Edit.SeamlessAll text entry.pending
  | _ => True

variable {registry : Registry} {path : String} {entry : Entry}

theorem allowed_install {hints : List Hint} (found : registry.get? path = some entry)
    (placed : ∀ hint ∈ hints, hint.Placed entry.text) : (install path hints).Allowed registry := by
  intro same known
  obtain rfl := Option.some.inj (found.symm.trans known)
  exact placed

theorem seamless_change {edits : List Edit} (found : registry.get? path = some entry)
    (seamless : Edit.SeamlessAll entry.text edits) : (change path edits).Seamless registry := by
  intro same known _
  obtain rfl := Option.some.inj (found.symm.trans known)
  exact seamless

end Operation

/-- The registries to which operations lead that are admitted where they are performed. -/
inductive Reaches (admits : Operation → Registry → Prop) : Registry → Prop
  | empty : Reaches admits .empty
  | perform {registry : Registry} (operation : Operation) (admitted : admits operation registry) :
      Reaches admits registry → Reaches admits (registry.perform operation)

def Placed (registry : Registry) : Prop :=
  ∀ path entry, registry.get? path = some entry → entry.Placed

theorem distinct_of_reaches {admits : Operation → Registry → Prop} {registry : Registry}
    (reached : Reaches admits registry) : registry.Distinct := by
  induction reached with
  | empty => exact List.nodup_nil
  | perform operation _ _ ih =>
    cases operation with
    | opening | change | markReload =>
      refine distinct_modify ?_ (distinct_ensure ih)
      simp [Entry.opening, Entry.markReload, Entry.replaceText, Entry.bump]
    | load => exact distinct_modify (by simp) ih
    | remove => exact distinct_remove ih
    | install => exact distinct_modify (fun _ => rfl) ih

/-- A change of the entry of a path keeps the hints placed if that of the entry does. -/
theorem placed_modify {registry : Registry} {path : String} {change : Entry → Entry}
    (keeps : ∀ entry, (change entry).path = entry.path) (placed : registry.Placed)
    (changed : ∀ entry, registry.get? path = some entry → (change entry).Placed) :
    (registry.modify path change).Placed := by
  intro other entry found
  rw [get?_modify _ _ _ keeps] at found
  split at found
  · next same =>
    subst same
    obtain ⟨old, known, rfl⟩ := Option.map_eq_some_iff.mp found
    exact changed old known
  · exact placed other entry found

theorem entryFor_placed {registry : Registry} (placed : registry.Placed) (path : String) :
    (registry.entryFor path).Placed := by
  unfold entryFor
  cases found : registry.get? path with
  | none => simp [Entry.Placed, Entry.new]
  | some entry => exact placed path entry found

theorem placed_ensure_modify {registry : Registry} {path : String} {change : Entry → Entry}
    (keeps : ∀ entry, (change entry).path = entry.path) (placed : registry.Placed)
    (changed : (change (registry.entryFor path)).Placed) :
    ((registry.ensure path).modify path change).Placed := by
  intro other entry found
  rw [get?_ensure_modify _ _ _ keeps] at found
  split at found
  · obtain rfl := Option.some.inj found
    exact changed
  · exact placed other entry found

/-- One operation keeps all hints placed. -/
theorem placed_perform {registry : Registry} {operation : Operation} (placed : registry.Placed)
    (allowed : operation.Allowed registry) (seamless : operation.Seamless registry) :
    (registry.perform operation).Placed := by
  cases operation with
  | opening path text =>
    refine placed_ensure_modify (fun _ => rfl) placed ?_
    exact Entry.replaceText_placed _ text
  | load path text =>
    refine placed_modify (by simp) placed ?_
    intro entry found
    exact Entry.load_placed (seamless entry found)
  | markReload path =>
    refine placed_ensure_modify (fun _ => rfl) placed ?_
    exact entryFor_placed placed path
  | change path edits =>
    refine placed_ensure_modify (by simp) placed ?_
    refine Entry.change_placed (entryFor_placed placed path) ?_
    intro current
    cases found : registry.get? path with
    | none => simp [entryFor, found, Entry.isWaiting, Entry.new] at current
    | some entry =>
      rw [entryFor_of_get? found] at current ⊢
      exact seamless entry found current
  | remove path =>
    intro other entry found
    change (registry.remove path).get? other = some entry at found
    rw [get?_remove] at found
    split at found
    · simp at found
    · exact placed other entry found
  | install path hints =>
    refine placed_modify (fun _ => rfl) placed ?_
    intro entry found
    exact allowed entry found

/-- Seamless operations keep all hints placed. -/
theorem placed_of_reaches {registry : Registry}
    (reached : Reaches (fun operation registry =>
      operation.Allowed registry ∧ operation.Seamless registry) registry) :
    registry.Placed := by
  induction reached with
  | empty => simp [Placed, empty, get?]
  | perform operation admitted _ ih => exact placed_perform ih admitted.1 admitted.2

/-- Hints that are installed and then moved by an edit. -/
theorem get?_install_change {registry : Registry} {path : String} {entry : Entry}
    (found : registry.get? path = some entry) (current : entry.isWaiting = false)
    (hints : List Hint) (edit : Edit) :
    ((registry.perform (.install path hints)).perform (.change path [edit])).get? path =
      some ({ entry with hints }.edit edit).bump := by
  have installed : (registry.perform (.install path hints)).get? path =
      some { entry with hints } := by
    change (registry.modify path fun entry => { entry with hints }).get? path = _
    rw [get?_modify _ _ _ (by intro; rfl), if_pos rfl, found]
    rfl
  change ((registry.perform (.install path hints)).change path [edit]).get? path = _
  rw [change, get?_ensure_modify _ _ _ (by simp), if_pos rfl, entryFor_of_get? installed]
  have direct : Entry.isWaiting { entry with hints } = false := current
  rw [Entry.change, direct]
  rfl

/-- Hints stay at positions of their text through every run of seamless operations. In whatever
registry an edit is applied, it keeps all placed hints placed exactly if it is seamless. -/
theorem hints_placed_while_seamless (registry : Registry) :
    (Reaches (fun operation registry =>
        operation.Allowed registry ∧ operation.Seamless registry) registry →
      ∀ entry ∈ registry.entries, ∀ hint ∈ entry.hints,
        clampPosition entry.text.toList hint.start = hint.start ∧
          clampPosition entry.text.toList hint.stop = hint.stop) ∧
    (Reaches Operation.Allowed registry →
      ∀ entry ∈ registry.entries, entry.isWaiting = false → ∀ edit : Edit,
        ((∀ hints, (Operation.install entry.path hints).Allowed registry →
          ∀ changed, ((registry.perform (.install entry.path hints)).perform
            (.change entry.path [edit])).get? entry.path = some changed → changed.Placed) ↔
          (edit.normalize entry.text).Seamless entry.text)) := by
  constructor
  · intro reached entry member
    exact placed_of_reaches reached entry.path entry
      (get?_of_mem (distinct_of_reaches reached) member)
  · intro reached entry member current edit
    have found := get?_of_mem (distinct_of_reaches reached) member
    rw [← Entry.edit_placed_iff]
    constructor
    · intro keeps hints placed
      have moved := keeps hints (Operation.allowed_install found placed) _
        (get?_install_change found current hints edit)
      exact moved
    · intro keeps hints allowed changed result
      rw [get?_install_change found current] at result
      obtain rfl := Option.some.inj result
      exact keeps hints (allowed entry found)

/-- The hint of a second line moves down when lines are put in before it. -/
theorem hint_placed_behind_new_lines :
    let hint : Hint := ⟨"", ": T", ⟨1, 0⟩, ⟨1, 1⟩, false, by decide⟩
    let opened := empty.perform (.opening "a.ts" "a\rb")
    let decorated := opened.perform (.install "a.ts" [hint])
    let edited := decorated.perform (.change "a.ts" [.insert ⟨1, 0⟩ "x\r\ny\r"])
    edited.hints "a.ts" = [⟨"", ": T", ⟨3, 0⟩, ⟨3, 1⟩, false, by decide⟩] ∧
      ∀ entry ∈ edited.entries, ∀ hint ∈ entry.hints,
        clampPosition entry.text.toList hint.start = hint.start ∧
          clampPosition entry.text.toList hint.stop = hint.stop := by
  refine ⟨by decide, ?_⟩
  apply (hints_placed_while_seamless _).1
  refine .perform _ ⟨trivial, ?_⟩ (.perform _ ⟨?_, trivial⟩ (.perform _ ⟨trivial, trivial⟩ .empty))
  · exact Operation.seamless_change rfl (by decide)
  · exact Operation.allowed_install rfl (by decide)

/-- A line feed that is typed right behind a carriage return takes a hint off its text. -/
theorem line_feed_displaces_hint :
    ¬ ∀ registry : Registry, Reaches Operation.Allowed registry →
      ∀ entry ∈ registry.entries, ∀ hint ∈ entry.hints,
        clampPosition entry.text.toList hint.start = hint.start ∧
          clampPosition entry.text.toList hint.stop = hint.stop := by
  intro all
  let hint : Hint := ⟨"", ": T", ⟨1, 0⟩, ⟨1, 1⟩, false, by decide⟩
  let opened := empty.perform (.opening "a.ts" "a\rb")
  let decorated := opened.perform (.install "a.ts" [hint])
  let edited := decorated.perform (.change "a.ts" [.insert ⟨1, 0⟩ "\n"])
  have reached : Reaches Operation.Allowed edited := by
    refine .perform _ trivial (.perform _ ?_ (.perform _ trivial .empty))
    exact Operation.allowed_install rfl (by decide)
  have displaced := all edited reached
  revert displaced
  decide

end Registry

end Inlay
