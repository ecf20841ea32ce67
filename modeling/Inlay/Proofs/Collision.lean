import Inlay.Proofs.Spelling

/-!
Where settings stand in each other's way.

Settings are laid over one another in the order in which they are given, each at its place. This
fails where a plain value stands on the way to a place, and nowhere else. It cannot fail if no
setting lies below a plain value that another one gives.
-/

namespace Inlay

/-- What holds of plain values, and of a mapping if it holds of its fields, holds of all values. -/
theorem Json.induction {motive : Json → Prop}
    (plain : ∀ value, Settings.isMapping value = false → motive value)
    (mapping : ∀ fields : Fields, (∀ entry ∈ fields, motive entry.2) → motive (.object fields))
    (value : Json) : motive value := by
  match value with
  | .object fields =>
    refine mapping fields fun entry member => ?_
    have smaller : sizeOf entry.2 < 1 + sizeOf fields := by
      have entry_lt := List.sizeOf_lt_of_mem member
      obtain ⟨key, inner⟩ := entry
      simp only [Prod.mk.sizeOf_spec] at entry_lt ⊢
      omega
    exact Json.induction plain mapping entry.2
  | .null | .bool _ | .int _ | .float _ | .text _ | .list _ => exact plain _ rfl
termination_by sizeOf value

namespace Settings

open Inlay.Json Inlay.Text

/-! ## Settings as writes -/

/-- Lays a value over what a mapping holds at a place. -/
def write (nested : Fields) (given : List String × Json) : Except Blocked Fields :=
  update (isMapping given.2) (lay given.2) given.1 nested

def writeAll (nested : Fields) (given : List (List String × Json)) : Except Blocked Fields :=
  given.foldlM write nested

/-- What the fields of a mapping write. Their names may be dotted. -/
def writesOf (items : Fields) : List (List String × Json) :=
  items.map fun item => (path item.1, item.2)

/-- What an entry writes. The name of the section stands for the fields of its value. -/
def writes (known : List String) (entry : String × Json) : List (List String × Json) :=
  match place? known entry.1, entry.2 with
  | none, _ => []
  | some [], .object items => writesOf items
  | some [], _ => []
  | some place, value => [(place, value)]

theorem writeAll_cons (nested : Fields) (first : List String × Json)
    (rest : List (List String × Json)) :
    writeAll nested (first :: rest) =
      match write nested first with
      | .ok written => writeAll written rest
      | .error cause => .error cause := by
  have bound : writeAll nested (first :: rest) =
      write nested first >>= fun written => writeAll written rest :=
    List.foldlM_cons
  rw [bound]
  cases write nested first <;> rfl

theorem writeAll_singleton (nested : Fields) (only : List String × Json) :
    writeAll nested [only] = write nested only := by
  rw [writeAll_cons]
  cases write nested only <;> rfl

theorem writeAll_append (nested : Fields) (early late : List (List String × Json)) :
    writeAll nested (early ++ late) =
      match writeAll nested early with
      | .ok written => writeAll written late
      | .error cause => .error cause := by
  induction early generalizing nested with
  | nil => rfl
  | cons first early ih =>
    rw [List.cons_append, writeAll_cons, writeAll_cons]
    cases write nested first with
    | ok written => exact ih written
    | error cause => rfl

/-- Writing fails at the first write that fails. -/
theorem writeAll_fails_iff {nested : Fields} {given : List (List String × Json)} :
    (∃ cause, writeAll nested given = .error cause) ↔
      ∃ earlier place value later written, given = earlier ++ (place, value) :: later ∧
        writeAll nested earlier = .ok written ∧
        ∃ cause, write written (place, value) = .error cause := by
  constructor
  · rintro ⟨cause, failed⟩
    induction given generalizing nested with
    | nil => cases failed
    | cons first rest ih =>
      obtain ⟨place, value⟩ := first
      rw [writeAll_cons] at failed
      cases done : write nested (place, value) with
      | error cause => exact ⟨[], place, value, rest, nested, rfl, rfl, cause, done⟩
      | ok written =>
        rw [done] at failed
        obtain ⟨earlier, place', value', later, written', rfl, before, fails⟩ := ih failed
        refine ⟨(place, value) :: earlier, place', value', later, written', rfl, ?_, fails⟩
        rw [writeAll_cons, done]
        exact before
  · rintro ⟨earlier, place, value, later, written, rfl, before, cause, failed⟩
    refine ⟨cause, ?_⟩
    rw [writeAll_append, before]
    dsimp only
    rw [writeAll_cons, failed]

theorem mergeInto_eq_writeAll (items old : Fields) :
    mergeInto items old = writeAll old (writesOf items) := by
  induction items generalizing old with
  | nil => rw [mergeInto]; rfl
  | cons item rest ih =>
    obtain ⟨key, value⟩ := item
    rw [mergeInto, writesOf, List.map_cons, writeAll_cons, ← writesOf]
    cases done : update (isMapping value) (lay value) (path key) old with
    | ok merged => simp [write, done, ih]
    | error cause => simp [write, done]

theorem addAll_eq_writeAll (known : List String) (nested settings : Fields) :
    addAll known nested settings = writeAll nested (settings.flatMap (writes known)) := by
  induction settings generalizing nested with
  | nil => rfl
  | cons entry rest ih =>
    obtain ⟨key, value⟩ := entry
    have added : add known nested key value = writeAll nested (writes known (key, value)) := by
      rw [Settings.add_eq, writes]
      cases place? known key with
      | none => rfl
      | some place =>
        cases place with
        | nil => cases value <;> first | rfl | exact mergeInto_eq_writeAll _ _
        | cons part place => exact (writeAll_singleton nested (part :: place, value)).symm
    rw [addAll_cons, List.flatMap_cons, writeAll_append, added]
    cases writeAll nested (writes known (key, value)) with
    | ok written => exact ih written
    | error cause => rfl

/-! ## Plain values on the way -/

/-- A plain value stands on the way to a place. -/
def Barred (place : List String) (fields : Fields) : Prop :=
  ∃ front rest plain, place = front ++ rest ∧ rest ≠ [] ∧
    at? front (.object fields) = some plain ∧ isMapping plain = false

theorem not_barred_singleton (part : String) (fields : Fields) : ¬ Barred [part] fields := by
  rintro ⟨front, rest, plain, split, further, found, isPlain⟩
  cases front with
  | nil =>
    obtain rfl := Option.some.inj found
    cases isPlain
  | cons first front => simp_all

theorem barred_cons {part next : String} {rest : List String} {fields : Fields} :
    Barred (part :: next :: rest) fields ↔
      ∃ value, fields.get? part = some value ∧
        (isMapping value = false ∨
          ∃ inner, value = .object inner ∧ Barred (next :: rest) inner) := by
  constructor
  · rintro ⟨front, tail, plain, split, further, found, isPlain⟩
    cases front with
    | nil =>
      obtain rfl := Option.some.inj found
      cases isPlain
    | cons first front =>
      obtain ⟨rfl, behind⟩ := List.cons.inj split
      rw [at?] at found
      obtain ⟨value, here, below⟩ := Option.bind_eq_some_iff.mp found
      refine ⟨value, here, ?_⟩
      cases value with
      | object inner => exact .inr ⟨inner, rfl, front, tail, plain, behind, further, below, isPlain⟩
      | null | bool | int | float | text | list => exact .inl rfl
  · rintro ⟨value, here, isPlain | ⟨inner, rfl, front, tail, plain, split, further, below, isPlain⟩⟩
    · refine ⟨[part], next :: rest, value, rfl, by simp, ?_, isPlain⟩
      simp [at?, here]
    · refine ⟨part :: front, tail, plain, by simp [split], further, ?_, isPlain⟩
      simpa [at?, here] using below

/-- A longer path goes on in the mapping at its first part, an empty one if there was none. -/
theorem update_cons_eq_ok {mapping : Bool} {change : Option Json → Except Blocked Json}
    {part next : String} {rest : List String} {fields updated : Fields}
    (done : update mapping change (part :: next :: rest) fields = .ok updated) :
    ∃ inner inner',
      (fields.get? part = some (.object inner) ∨ fields.get? part = none ∧ inner = []) ∧
      update mapping change (next :: rest) inner = .ok inner' ∧
        updated = fields.put part (.object inner') := by
  rw [update] at done
  cases found : fields.get? part with
  | none =>
    rw [found] at done
    cases done' : update mapping change (next :: rest) [] with
    | error cause => simp [done', Except.map] at done
    | ok inner' =>
      simp only [done', Except.map, Except.ok.injEq] at done
      exact ⟨[], inner', .inr ⟨rfl, rfl⟩, done', done.symm⟩
  | some value =>
    rw [found] at done
    cases value with
    | object inner =>
      cases done' : update mapping change (next :: rest) inner with
      | error cause => simp [done', Except.map] at done
      | ok inner' =>
        simp only [done', Except.map, Except.ok.injEq] at done
        exact ⟨inner, inner', .inl rfl, done', done.symm⟩
    | null | bool | int | float | text | list => cases done

/-- A change at a place fails if the way is barred or the change itself fails. -/
theorem update_fails_iff {mapping : Bool} {change : Option Json → Except Blocked Json}
    {target : List String} {fields : Fields} (somewhere : target ≠ []) :
    (∃ cause, update mapping change target fields = .error cause) ↔
      Barred target fields ∨ ∃ cause, change (at? target (.object fields)) = .error cause := by
  induction target generalizing fields with
  | nil => exact absurd rfl somewhere
  | cons part rest ih =>
    cases rest with
    | nil =>
      have found : at? [part] (.object fields) = fields.get? part := by
        cases looked : fields.get? part <;> simp [at?, looked]
      rw [found, update]
      have free := not_barred_singleton part fields
      cases change (fields.get? part) <;> simp [Except.map, free]
    | cons next rest =>
      have inner := fun below => @ih below (List.cons_ne_nil next rest)
      cases found : fields.get? part with
      | none =>
        have nowhere : at? (part :: next :: rest) (.object fields) =
            at? (next :: rest) (.object []) := by
          rw [at?, found, at?]
          rfl
        have free : ¬ Barred (part :: next :: rest) fields := by
          rw [barred_cons]
          simp [found]
        have free' : ¬ Barred (next :: rest) [] := by
          cases rest with
          | nil => exact not_barred_singleton next []
          | cons => simp [barred_cons, Fields.get?]
        simp only [update, found]
        rw [nowhere]
        have below := inner []
        simp only [free', false_or] at below
        simp only [free, false_or, ← below]
        cases update mapping change (next :: rest) [] <;> simp [Except.map]
      | some value =>
        cases value with
        | object below =>
          have there : at? (part :: next :: rest) (.object fields) =
              at? (next :: rest) (.object below) := by
            simp [at?, found]
          have bars : Barred (part :: next :: rest) fields ↔ Barred (next :: rest) below := by
            simp [barred_cons, found, isMapping]
          simp only [update, found]
          rw [there, bars, ← inner below]
          cases update mapping change (next :: rest) below <;> simp [Except.map]
        | null | bool | int | float | text | list =>
          have barred : Barred (part :: next :: rest) fields :=
            barred_cons.mpr ⟨_, found, .inl rfl⟩
          simp [update, found, barred]

/-- A value cannot be laid at a place: the way there is barred, or a field of the value cannot be
laid over the mapping that is there. -/
inductive Stumbles : List String → Json → Fields → Prop
  | barred {place : List String} {value : Json} {fields : Fields} (barred : Barred place fields) :
      Stumbles place value fields
  | inside {place inner : List String} {value : Json} {items fields old merged : Fields}
      {earlier later : List (List String × Json)}
      (found : at? place (.object fields) = some (.object old))
      (split : writesOf items = earlier ++ (inner, value) :: later)
      (before : writeAll old earlier = .ok merged) (stumbles : Stumbles inner value merged) :
      Stumbles place (.object items) fields

theorem place_ne_nil_of_mem_writesOf {items : Fields} {place : List String} {value : Json}
    (member : (place, value) ∈ writesOf items) : place ≠ [] := by
  obtain ⟨item, _, same⟩ := List.mem_map.mp member
  obtain ⟨rfl, -⟩ := Prod.mk.inj same
  exact path_ne_nil item.1

theorem lay_fails_iff {value : Json} {old : Option Json} :
    (∃ cause, lay value old = .error cause) ↔
      ∃ items before, value = .object items ∧ old = some (.object before) ∧
        ∃ cause, writeAll before (writesOf items) = .error cause := by
  constructor
  · rintro ⟨cause, failed⟩
    unfold lay at failed
    split at failed
    · next items before =>
      rw [mergeInto_eq_writeAll] at failed
      refine ⟨items, before, rfl, rfl, ?_⟩
      cases done : writeAll before (writesOf items) with
      | ok merged => rw [done] at failed; cases failed
      | error cause => exact ⟨cause, rfl⟩
    · cases failed
  · rintro ⟨items, before, rfl, rfl, cause, failed⟩
    refine ⟨cause, ?_⟩
    rw [lay, mergeInto_eq_writeAll, failed]
    rfl

theorem Stumbles.write_fails {place : List String} {value : Json} {fields : Fields}
    (stumbles : Stumbles place value fields) (somewhere : place ≠ []) :
    ∃ cause, write fields (place, value) = .error cause := by
  induction stumbles with
  | barred barred => exact (update_fails_iff somewhere).mpr (.inl barred)
  | @inside place inner value items fields old merged earlier later found split before _ ih =>
    refine (update_fails_iff somewhere).mpr (.inr ?_)
    rw [found]
    have member : (inner, value) ∈ writesOf items := by
      rw [split]
      exact List.mem_append_right earlier List.mem_cons_self
    have failed := ih (place_ne_nil_of_mem_writesOf member)
    exact lay_fails_iff.mpr ⟨items, old, rfl, rfl,
      writeAll_fails_iff.mpr ⟨earlier, inner, value, later, merged, split, before, failed⟩⟩

theorem stumbles_of_write_fails (value : Json) {place : List String} {fields : Fields}
    (somewhere : place ≠ []) (failed : ∃ cause, write fields (place, value) = .error cause) :
    Stumbles place value fields := by
  induction value using Json.induction generalizing place fields with
  | plain value isPlain =>
    rcases (update_fails_iff somewhere).mp failed with barred | failed
    · exact .barred barred
    · obtain ⟨items, _, rfl, _⟩ := lay_fails_iff.mp failed
      cases isPlain
  | mapping items ih =>
    rcases (update_fails_iff somewhere).mp failed with barred | failed
    · exact .barred barred
    · obtain ⟨_, old, same, found, failed⟩ := lay_fails_iff.mp failed
      obtain rfl := Json.object.inj same
      obtain ⟨earlier, inner, value, later, merged, split, before, failed⟩ :=
        writeAll_fails_iff.mp failed
      have member : (inner, value) ∈ writesOf items := by
        rw [split]
        exact List.mem_append_right earlier List.mem_cons_self
      obtain ⟨item, member', same⟩ := List.mem_map.mp member
      obtain ⟨rfl, rfl⟩ := Prod.mk.inj same
      exact .inside found split before (ih item member' (path_ne_nil item.1) failed)

/-! ## Settings that keep apart -/

mutual

/-- The places below a value at which it has something, be it a mapping or a plain value. -/
def places : Json → List (List String)
  | .object fields => [] :: placesOf fields
  | _ => [[]]

def placesOf : List (String × Json) → List (List String)
  | [] => []
  | (key, value) :: rest => (places value).map (path key ++ ·) ++ placesOf rest

end

/-- Nothing is written below a place to which a plain value is written. -/
def Apart (given : List (List String × Json)) : Prop :=
  ∀ plain ∈ given, ∀ leaf ∈ leaves plain.2, ∀ other ∈ given, ∀ place ∈ places other.2,
    plain.1 ++ leaf.1 <+: other.1 ++ place → plain.1 ++ leaf.1 = other.1 ++ place

instance (given : List (List String × Json)) : Decidable (Apart given) :=
  inferInstanceAs (Decidable (∀ plain ∈ given, ∀ leaf ∈ leaves plain.2, ∀ other ∈ given,
    ∀ place ∈ places other.2, _ → _))

theorem nil_mem_places (value : Json) : [] ∈ places value := by
  cases value <;> simp [places]

theorem mem_leavesOf {fields : Fields} {entry : String × Json} {leaf : List String × Json}
    (member : entry ∈ fields) (inside : leaf ∈ leaves entry.2) :
    (path entry.1 ++ leaf.1, leaf.2) ∈ leavesOf fields := by
  induction fields with
  | nil => cases member
  | cons first rest ih =>
    obtain ⟨key, value⟩ := first
    rw [leavesOf]
    rcases List.mem_cons.mp member with rfl | later
    · exact List.mem_append_left _ (List.mem_map.mpr ⟨leaf, inside, rfl⟩)
    · exact List.mem_append_right _ (ih later)

theorem mem_placesOf {fields : Fields} {entry : String × Json} {place : List String}
    (member : entry ∈ fields) (inside : place ∈ places entry.2) :
    path entry.1 ++ place ∈ placesOf fields := by
  induction fields with
  | nil => cases member
  | cons first rest ih =>
    obtain ⟨key, value⟩ := first
    rw [placesOf]
    rcases List.mem_cons.mp member with rfl | later
    · exact List.mem_append_left _ (List.mem_map.mpr ⟨place, inside, rfl⟩)
    · exact List.mem_append_right _ (ih later)

/-- The parts of the place have no dots. -/
def Undotted (place : List String) : Prop := ∀ part ∈ place, path part = [part]

theorem undotted_path (key : String) : Undotted (path key) := by
  intro part member
  obtain ⟨piece, listed, rfl⟩ := List.mem_map.mp member
  rw [path, String.toList_ofList, splitAt_of_not_mem (not_mem_of_mem_splitAt listed)]
  rfl

theorem undotted_of_place? {known : List String} {key : String} {place : List String}
    (names : place? known key = some place) : Undotted place := by
  have whole := undotted_path key
  unfold place? at names
  split at names
  · cases names
  · next name single =>
    rw [single] at whole
    split at names
    · obtain rfl := Option.some.inj names
      exact fun part member => absurd member List.not_mem_nil
    · split at names
      · obtain rfl := Option.some.inj names
        exact whole
      · cases names
  · next name first rest several =>
    rw [several] at whole
    split at names
    · obtain rfl := Option.some.inj names
      exact fun part member => whole part (List.mem_cons_of_mem name member)
    · cases names

/-- Plain values stand at allowed places only. Names with dots are out of reach. -/
def Keeps (allowed : List String → Prop) (value : Json) : Prop :=
  ∀ front plain, Undotted front → at? front value = some plain → isMapping plain = false →
    allowed front

/-- A plain value below a value is one of its leaves. -/
theorem mem_leaves_of_at? {front : List String} {value plain : Json} (undotted : Undotted front)
    (looked : at? front value = some plain) (isPlain : isMapping plain = false) :
    (front, plain) ∈ leaves value := by
  induction front generalizing value with
  | nil =>
    obtain rfl := Option.some.inj looked
    rw [leaves_plain isPlain]
    exact List.mem_cons_self
  | cons part front ih =>
    cases value with
    | object fields =>
      rw [at?] at looked
      obtain ⟨inner, found, below⟩ := Option.bind_eq_some_iff.mp looked
      have leaf := ih (fun other member => undotted other (List.mem_cons_of_mem part member)) below
      have listed := mem_leavesOf (Fields.mem_of_get? found) leaf
      rw [undotted part List.mem_cons_self] at listed
      rw [leaves]
      exact listed
    | null | bool | int | float | text | list => cases looked

/-- A plain value in a mapping that was changed at a place is one of the new value, or it was there
before. -/
theorem plain_of_update {mapping : Bool} {change : Option Json → Except Blocked Json}
    {target front : List String} {fields updated : Fields} {plain : Json}
    (done : update mapping change target fields = .ok updated)
    (looked : at? front (.object updated) = some plain) (isPlain : isMapping plain = false) :
    (∃ rest new, front = target ++ rest ∧ change (at? target (.object fields)) = .ok new ∧
        at? rest new = some plain) ∨
      at? front (.object fields) = some plain := by
  induction target generalizing front fields updated with
  | nil =>
    rw [update] at done
    obtain rfl := Except.ok.inj done
    exact .inr looked
  | cons part rest ih =>
    cases front with
    | nil =>
      obtain rfl := Option.some.inj looked
      cases isPlain
    | cons first front =>
      rw [at?] at looked
      cases rest with
      | nil =>
        have found : at? [part] (.object fields) = fields.get? part := by
          cases looked : fields.get? part <;> simp [at?, looked]
        rw [found]
        rw [update] at done
        cases changed : change (fields.get? part) with
        | error cause => rw [changed] at done; cases done
        | ok new =>
          rw [changed] at done
          obtain rfl := Except.ok.inj done
          rw [Fields.get?_put] at looked
          by_cases here : part = first
          · subst here
            rw [if_pos rfl] at looked
            exact .inl ⟨front, new, rfl, rfl, looked⟩
          · rw [if_neg here] at looked
            exact .inr looked
      | cons next rest =>
        obtain ⟨inner, inner', found, done', rfl⟩ := update_cons_eq_ok done
        have same : at? (part :: next :: rest) (.object fields) =
            at? (next :: rest) (.object inner) := by
          rcases found with found | ⟨none, rfl⟩
          · rw [at?, found]
            rfl
          · rw [at?, none, at?]
            rfl
        have kept : at? front (.object inner) = some plain →
            at? (part :: front) (.object fields) = some plain := by
          intro before
          rcases found with found | ⟨none, rfl⟩
          · rw [at?, found]
            exact before
          · cases front with
            | nil =>
              obtain rfl := Option.some.inj before
              cases isPlain
            | cons => cases before
        rw [Fields.get?_put] at looked
        by_cases here : part = first
        · subst here
          rw [if_pos rfl] at looked
          rcases ih done' looked with ⟨rest', new, rfl, changed, below⟩ | before
          · exact .inl ⟨rest', new, rfl, by rw [same]; exact changed, below⟩
          · exact .inr (kept before)
        · rw [if_neg here] at looked
          exact .inr looked

/-- A write to a place below no plain value goes through. -/
theorem Keeps.write {allowed : List String → Prop} {place : List String} {value : Json}
    {fields : Fields} (keeps : Keeps allowed (.object fields)) (somewhere : place ≠ [])
    (undotted : Undotted place) (clear : ∀ front, allowed front → front <+: place → front = place)
    (laid : ∀ old, (∀ before, old = some before →
        Keeps (fun rest => allowed (place ++ rest)) before) →
      ∃ new, lay value old = .ok new ∧ Keeps (fun rest => allowed (place ++ rest)) new) :
    ∃ written, write fields (place, value) = .ok written ∧ Keeps allowed (.object written) := by
  have free : ¬ Barred place fields := by
    rintro ⟨front, rest, plain, rfl, further, found, isPlain⟩
    have before : Undotted front :=
      fun part member => undotted part (List.mem_append_left rest member)
    have whole :=
      clear front (keeps front plain before found isPlain) (List.prefix_append front rest)
    exact further (List.self_eq_append_right.mp whole)
  obtain ⟨new, changed, fits⟩ := laid (at? place (.object fields)) fun before looked front plain
      undotted' found isPlain => by
    refine keeps (place ++ front) plain ?_ ?_ isPlain
    · intro part member
      rcases List.mem_append.mp member with old | new
      · exact undotted part old
      · exact undotted' part new
    · rw [at?_append, looked]
      exact found
  cases done : Settings.write fields (place, value) with
  | error cause =>
    rcases (update_fails_iff somewhere).mp ⟨cause, done⟩ with barred | ⟨cause, failed⟩
    · exact absurd barred free
    · rw [changed] at failed
      cases failed
  | ok written =>
    refine ⟨written, rfl, ?_⟩
    intro front plain undotted' looked isPlain
    rcases plain_of_update done looked isPlain with ⟨rest, new', rfl, changed', below⟩ | before
    · obtain rfl := Except.ok.inj (changed.symm.trans changed')
      exact fits rest plain (fun part member => undotted' part (List.mem_append_right place member))
        below isPlain
    · exact keeps front plain undotted' before isPlain

theorem Keeps.writeAll {allowed : List String → Prop} {given : List (List String × Json)}
    (each : ∀ one ∈ given, ∀ fields : Fields, Keeps allowed (.object fields) →
      ∃ written, Settings.write fields one = .ok written ∧ Keeps allowed (.object written))
    {fields : Fields} (keeps : Keeps allowed (.object fields)) :
    ∃ written, writeAll fields given = .ok written ∧ Keeps allowed (.object written) := by
  induction given generalizing fields with
  | nil => exact ⟨fields, rfl, keeps⟩
  | cons first rest ih =>
    obtain ⟨written, done, keeps'⟩ := each first List.mem_cons_self fields keeps
    obtain ⟨final, done', keeps''⟩ :=
      ih (fun one member => each one (List.mem_cons_of_mem first member)) keeps'
    exact ⟨final, by rw [writeAll_cons, done]; exact done', keeps''⟩

theorem keeps_of_leaves {allowed : List String → Prop} {value : Json}
    (plain : ∀ leaf ∈ leaves value, allowed leaf.1) : Keeps allowed value :=
  fun front found undotted looked isPlain =>
    plain (front, found) (mem_leaves_of_at? undotted looked isPlain)

/-- A value replaces what is there unless both are mappings. -/
theorem lay_replaces {value : Json} {old : Option Json}
    (fresh : ∀ items fields, value = .object items → old ≠ some (.object fields)) :
    lay value old = .ok value := by
  unfold lay
  split
  · next items fields => exact absurd rfl (fresh items fields rfl)
  · rfl

/-- Whatever is there, the value can be laid over it, if its plain values stand at allowed places
and nothing of it or of the others stands below one. -/
def LaysClear (value : Json) : Prop :=
  ∀ allowed reached : List String → Prop,
    (∀ front, allowed front → ∀ place, reached place → front <+: place → front = place) →
    (∀ leaf ∈ leaves value, allowed leaf.1) → (∀ place ∈ places value, reached place) →
    ∀ old : Option Json, (∀ before, old = some before → Keeps allowed before) →
      ∃ new, lay value old = .ok new ∧ Keeps allowed new

theorem LaysClear.write {allowed reached : List String → Prop} {place : List String} {value : Json}
    (lays : LaysClear value) (somewhere : place ≠ []) (undotted : Undotted place)
    (apart : ∀ front, allowed front → ∀ place, reached place → front <+: place → front = place)
    (plain : ∀ leaf ∈ leaves value, allowed (place ++ leaf.1))
    (inside : ∀ inner ∈ places value, reached (place ++ inner)) {fields : Fields}
    (keeps : Keeps allowed (.object fields)) :
    ∃ written, Settings.write fields (place, value) = .ok written ∧
      Keeps allowed (.object written) := by
  refine keeps.write somewhere undotted ?_ ?_
  · intro front allowed' starts
    have here := inside [] (nil_mem_places value)
    rw [List.append_nil] at here
    exact apart front allowed' place here starts
  · refine lays _ (fun inner => reached (place ++ inner)) ?_ plain inside
    intro front allowed' inner reached' starts
    have same := apart _ allowed' _ reached' ((List.prefix_append_right_inj place).mpr starts)
    exact List.append_cancel_left same

theorem laysClear (value : Json) : LaysClear value := by
  induction value using Json.induction with
  | plain value isPlain =>
    intro allowed reached _ plain _ old _
    refine ⟨value, lay_replaces ?_, keeps_of_leaves plain⟩
    rintro items fields rfl
    cases isPlain
  | mapping items ih =>
    intro allowed reached apart plain inside old before
    by_cases merges : ∃ fields, old = some (.object fields)
    · obtain ⟨fields, rfl⟩ := merges
      rw [leaves] at plain
      rw [places] at inside
      have each : ∀ one ∈ writesOf items, ∀ fields : Fields, Keeps allowed (.object fields) →
          ∃ written, write fields one = .ok written ∧ Keeps allowed (.object written) := by
        intro one member fields keeps
        obtain ⟨item, listed, rfl⟩ := List.mem_map.mp member
        refine (ih item listed).write (path_ne_nil item.1) (undotted_path item.1) apart ?_ ?_ keeps
        · exact fun leaf there => plain _ (mem_leavesOf listed there)
        · exact fun place there => inside _ (List.mem_cons_of_mem [] (mem_placesOf listed there))
      obtain ⟨merged, done, keeps⟩ := Keeps.writeAll each (before _ rfl)
      refine ⟨.object merged, ?_, keeps⟩
      rw [lay, mergeInto_eq_writeAll, done]
      rfl
    · refine ⟨.object items, lay_replaces ?_, keeps_of_leaves plain⟩
      rintro _ fields _ rfl
      exact merges ⟨fields, rfl⟩

theorem writes_somewhere {known : List String} {entry : String × Json} {place : List String}
    {value : Json} (member : (place, value) ∈ writes known entry) :
    place ≠ [] ∧ Undotted place := by
  obtain ⟨key, given⟩ := entry
  rw [writes] at member
  cases names : place? known key with
  | none =>
    rw [names] at member
    cases member
  | some front =>
    rw [names] at member
    cases front with
    | nil =>
      cases given with
      | object items =>
        obtain ⟨item, _, same⟩ := List.mem_map.mp member
        obtain ⟨rfl, -⟩ := Prod.mk.inj same
        exact ⟨path_ne_nil item.1, undotted_path item.1⟩
      | null | bool | int | float | text | list => cases member
    | cons part rest =>
      obtain ⟨rfl, rfl⟩ := Prod.mk.inj (List.mem_singleton.mp member)
      exact ⟨List.cons_ne_nil part rest, undotted_of_place? names⟩

/-- Settings that keep apart are all laid down. -/
theorem Apart.writeAll {known : List String} {settings : Fields}
    (apart : Apart (settings.flatMap (writes known))) :
    ∃ nested, writeAll [] (settings.flatMap (writes known)) = .ok nested := by
  let given := settings.flatMap (writes known)
  let allowed (front : List String) : Prop :=
    ∃ one ∈ given, ∃ leaf ∈ leaves one.2, front = one.1 ++ leaf.1
  let reached (place : List String) : Prop :=
    ∃ one ∈ given, ∃ inner ∈ places one.2, place = one.1 ++ inner
  have apart' : ∀ front, allowed front → ∀ place, reached place → front <+: place →
      front = place := by
    rintro _ ⟨one, member, leaf, inside, rfl⟩ _ ⟨other, member', place, inside', rfl⟩ starts
    exact apart one member leaf inside other member' place inside' starts
  have each : ∀ one ∈ given, ∀ fields : Fields, Keeps allowed (.object fields) →
      ∃ written, write fields one = .ok written ∧ Keeps allowed (.object written) := by
    intro one member fields keeps
    obtain ⟨entry, _, wrote⟩ := List.mem_flatMap.mp member
    obtain ⟨somewhere, undotted⟩ := writes_somewhere wrote
    refine (laysClear one.2).write somewhere undotted apart' ?_ ?_ keeps
    · exact fun leaf there => ⟨one, member, leaf, there, rfl⟩
    · exact fun place there => ⟨one, member, place, there, rfl⟩
  have empty : Keeps allowed (.object []) := by
    intro front plain _ looked isPlain
    cases front with
    | nil =>
      obtain rfl := Option.some.inj looked
      cases isPlain
    | cons => cases looked
  obtain ⟨nested, done, -⟩ := Keeps.writeAll each empty
  exact ⟨nested, done⟩

/-! ## Configurations -/

/-- Some setting cannot be laid over those before it. -/
def Collides (settings : Fields) : Prop :=
  ∃ earlier place value later nested,
    settings.flatMap (writes Check.settingKeys) = earlier ++ (place, value) :: later ∧
      writeAll [] earlier = .ok nested ∧ Stumbles place value nested

theorem nest_eq_writeAll (known : List String) (settings : Fields) :
    nest known settings = writeAll [] (settings.flatMap (writes known)) :=
  addAll_eq_writeAll known [] settings

theorem collides_iff {settings : Fields} :
    Collides settings ↔ ∃ cause, nest Check.settingKeys settings = .error cause := by
  rw [nest_eq_writeAll, writeAll_fails_iff]
  refine exists_congr fun earlier => exists_congr fun place => exists_congr fun value =>
    exists_congr fun later => exists_congr fun nested => and_congr_right fun split => ?_
  have member : (place, value) ∈ settings.flatMap (writes Check.settingKeys) := by
    rw [split]
    exact List.mem_append_right earlier List.mem_cons_self
  obtain ⟨entry, _, wrote⟩ := List.mem_flatMap.mp member
  have somewhere : place ≠ [] := (writes_somewhere wrote).1
  exact and_congr_right fun _ =>
    ⟨fun stumbles => stumbles.write_fails somewhere, stumbles_of_write_fails value somewhere⟩

/-- Settings give a configuration or a report of what is wrong with them, exactly if none of them
stumbles over a plain value of those before it, however they are checked. They never do if nothing
is given below a place to which a plain value is given. -/
theorem settings_checked_unless_colliding (check : Validator) (settings : Fields) :
    (((∃ configuration, configureBy check settings = .ok configuration) ∨
        ∃ faults, configureBy check settings = .error (.faults faults)) ↔ ¬ Collides settings) ∧
      (Apart (settings.flatMap (writes Check.settingKeys)) → ¬ Collides settings) := by
  refine ⟨?_, ?_⟩
  · rw [collides_iff, configureBy]
    cases nest Check.settingKeys settings with
    | error cause => simp
    | ok nested =>
      cases checked : check nested with
      | ok configuration => simp [checked]
      | error faults => simp [checked]
  · intro apart
    obtain ⟨nested, done⟩ := apart.writeAll
    rw [collides_iff, nest_eq_writeAll, done]
    simp

/-- Two features that are no switches, one of them in a mapping under a dotted name, and a delay
that is given twice. -/
def faultySettings : Fields :=
  [("features", .object [("variableType", .int 3)]), ("inlineTypes.updateDelay", .null),
   ("inlineTypes", .object [("features.highlightAny", .text "maybe"), ("updateDelay", .list [])])]

theorem writes_faultySettings :
    faultySettings.flatMap (writes Check.settingKeys) =
      [(["features"], .object [("variableType", .int 3)]), (["updateDelay"], .null),
       (["features", "highlightAny"], .text "maybe"), (["updateDelay"], .list [])] := by
  decide +kernel

/-- The faults of settings that keep apart are reported. -/
theorem faulty_settings_checked :
    (∃ configuration, configure faultySettings = .ok configuration) ∨
      ∃ faults, configure faultySettings = .error (.faults faults) := by
  obtain ⟨checked, clear⟩ :=
    settings_checked_unless_colliding Check.configuration faultySettings
  have apart : Apart (faultySettings.flatMap (writes Check.settingKeys)) := by
    rw [writes_faultySettings]
    decide +kernel
  exact checked.mpr (clear apart)

/-- A feature under a plain value gives neither a configuration nor a report. -/
theorem plain_section_blocks_feature :
    ¬ ∀ settings : Fields, (∃ configuration, configure settings = .ok configuration) ∨
      ∃ faults, configure settings = .error (.faults faults) := by
  intro checked
  have blocked : (nest Check.settingKeys
      [("features", .bool true), ("inlineTypes.features.variableType", .bool false)]).isOk =
        false := by
    decide +kernel
  cases nests : nest Check.settingKeys
      [("features", .bool true), ("inlineTypes.features.variableType", .bool false)] with
  | ok nested =>
    rw [nests] at blocked
    cases blocked
  | error cause =>
    have refused : configure
        [("features", .bool true), ("inlineTypes.features.variableType", .bool false)] =
          .error (.blocked cause) := by
      rw [configure, configureBy, nests]
    rcases checked _ with ⟨configuration, done⟩ | ⟨faults, found⟩
    · exact absurd (refused.symm.trans done) (by simp)
    · exact absurd (refused.symm.trans found) (by simp)

end Settings

end Inlay
