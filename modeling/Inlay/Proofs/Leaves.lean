import Inlay.Settings.Nest
import Inlay.Proofs.Text

/-!
The leaves of nested settings.

Mappings stand at the places of sections, and plain values at the places of leaves. Where a value is
laid over another one and both have this shape, neither is in the way of the other: the result has
the shape too, and of each leaf the value that was given last.
-/

namespace Inlay

namespace Json.Fields

theorem get?_cons (fields : Fields) (key name : String) (value : Json) :
    get? ((key, value) :: fields) name = if key = name then some value else get? fields name := by
  by_cases same : key = name <;> simp [get?, same]

theorem get?_put (fields : Fields) (key name : String) (value : Json) :
    (fields.put key value).get? name = if key = name then some value else fields.get? name := by
  induction fields with
  | nil => exact get?_cons [] key name value
  | cons field rest ih =>
    obtain ⟨first, old⟩ := field
    rw [put]
    by_cases here : first = key
    · subst here
      rw [if_pos rfl, get?_cons, get?_cons]
      by_cases same : first = name <;> simp [same]
    · rw [if_neg here, get?_cons, get?_cons, ih]
      by_cases same : first = name
      · subst same
        simp [Ne.symm here]
      · simp [same]

theorem get?_eq_none {fields : Fields} {name : String} (absent : name ∉ fields.names) :
    fields.get? name = none := by
  induction fields with
  | nil => rfl
  | cons field rest ih =>
    obtain ⟨key, value⟩ := field
    simp only [names, List.map_cons, List.mem_cons, not_or] at absent
    rw [get?_cons, if_neg (Ne.symm absent.1)]
    exact ih absent.2

theorem mem_of_get? {fields : Fields} {name : String} {value : Json}
    (found : fields.get? name = some value) : (name, value) ∈ fields := by
  induction fields with
  | nil => cases found
  | cons entry rest ih =>
    obtain ⟨key, first⟩ := entry
    rw [get?_cons] at found
    by_cases same : key = name
    · subst same
      rw [if_pos rfl] at found
      obtain rfl := Option.some.inj found
      exact List.mem_cons_self
    · rw [if_neg same] at found
      exact List.mem_cons_of_mem _ (ih found)

end Json.Fields

namespace Settings

open Inlay.Json Inlay.Text

/-! ## Leaves -/

/-- The value at a path below a value. -/
def at? : List String → Json → Option Json
  | [], value => some value
  | part :: rest, .object fields => (Fields.get? fields part).bind (at? rest)
  | _ :: _, _ => none

/-- The value at a path, if it is no mapping. -/
def leaf? (place : List String) (value : Json) : Option Json :=
  (at? place value).filter (!isMapping ·)

/-- Values that are given below a path. -/
def below (front : List String) (given : List (List String × Json)) :
    List (List String × Json) :=
  given.map fun (place, value) => (front ++ place, value)

mutual

/-- The leaves below a value in the order in which they are given, with their paths. -/
def leaves : Json → List (List String × Json)
  | .object fields => leavesOf fields
  | value => [([], value)]

/-- The leaves below the fields of a mapping. Their names may be dotted. -/
def leavesOf : List (String × Json) → List (List String × Json)
  | [] => []
  | (key, value) :: rest => below (path key) (leaves value) ++ leavesOf rest

end

/-- What is given last to a place. -/
def lastGiven (given : List (List String × Json)) (place : List String) : Option Json :=
  (given.filter (·.1 = place)).getLast?.map (·.2)

theorem leaf?_cons (part : String) (rest : List String) (fields : Fields) :
    leaf? (part :: rest) (.object fields) = (fields.get? part).bind (leaf? rest) := by
  cases found : fields.get? part <;> simp [leaf?, at?, found]

theorem leaf?_nil (fields : Fields) : leaf? [] (.object fields) = none := rfl

theorem leaf?_plain {value : Json} (plain : isMapping value = false) (place : List String) :
    leaf? place value = if place = [] then some value else none := by
  cases place with
  | nil => simp [leaf?, at?, plain]
  | cons part rest => cases value <;> simp_all [leaf?, at?, isMapping]

theorem leaves_plain {value : Json} (plain : isMapping value = false) :
    leaves value = [([], value)] := by
  cases value <;> simp_all [leaves, isMapping]

theorem at?_append (front rest : List String) (value : Json) :
    at? (front ++ rest) value = (at? front value).bind (at? rest) := by
  induction front generalizing value with
  | nil => rfl
  | cons part front ih =>
    cases value with
    | object fields =>
      rw [List.cons_append, at?, at?]
      cases Fields.get? fields part with
      | none => rfl
      | some inner => exact ih inner
    | null | bool | int | float | text | list => rfl

/-- A leaf behind a path is a leaf of what stands there. -/
theorem leaf?_append (front rest : List String) (value : Json) :
    leaf? (front ++ rest) value = (at? front value).bind (leaf? rest) := by
  rw [leaf?, at?_append]
  cases at? front value <;> rfl

theorem lastGiven_append (early late : List (List String × Json)) (place : List String) :
    lastGiven (early ++ late) place = (lastGiven late place).or (lastGiven early place) := by
  rw [lastGiven, List.filter_append, List.getLast?_append, lastGiven, lastGiven]
  cases (late.filter (·.1 = place)).getLast? <;> rfl

theorem lastGiven_cons (place other : List String) (value : Json)
    (late : List (List String × Json)) :
    lastGiven ((place, value) :: late) other =
      (lastGiven late other).or (if place = other then some value else none) := by
  have single : lastGiven [(place, value)] other = if place = other then some value else none := by
    by_cases same : place = other <;> simp [lastGiven, same]
  rw [← single, ← lastGiven_append]
  rfl

/-- What is given below a path is given to the places that start with it. -/
theorem lastGiven_below (front place : List String) (given : List (List String × Json)) :
    lastGiven (below front given) place =
      if front <+: place then lastGiven given (place.drop front.length) else none := by
  induction given with
  | nil => simp [below, lastGiven]
  | cons leaf rest ih =>
    obtain ⟨here, value⟩ := leaf
    rw [below, List.map_cons, lastGiven_cons, ← below, ih]
    by_cases starts : front <+: place
    · obtain ⟨other, rfl⟩ := starts
      simp [lastGiven_cons]
    · have apart : front ++ here ≠ place := fun same => starts ⟨here, same⟩
      simp [starts, apart]

/-! ## Sections -/

/-- Mappings may stand at the root and at the places of sections, and nowhere else. -/
def IsSection (sections : List (List String)) (place : List String) : Prop :=
  place = [] ∨ place ∈ sections

instance (sections : List (List String)) (place : List String) :
    Decidable (IsSection sections place) :=
  inferInstanceAs (Decidable (_ ∨ _))

/-- Every place on the way to the end of a path is a section. -/
def Leads (sections : List (List String)) (place : List String) : List String → Prop
  | [] => True
  | part :: rest => IsSection sections place ∧ Leads sections (place ++ [part]) rest

/-- Mappings stand at the sections below a place, and plain values elsewhere. -/
inductive Shaped (sections : List (List String)) : List String → Json → Prop
  | plain {place : List String} {value : Json} (plain : isMapping value = false)
      (outside : ¬ IsSection sections place) : Shaped sections place value
  | mapping {place : List String} {fields : Fields} (inside : IsSection sections place)
      (inner : ∀ name value, fields.get? name = some value →
        Shaped sections (place ++ [name]) value) : Shaped sections place (.object fields)

/-- A value as it is given at a place: mappings stand at the sections, and each name in them stands
there once and has no dots. -/
inductive Fits (sections : List (List String)) : List String → Json → Prop
  | plain {place : List String} {value : Json} (plain : isMapping value = false)
      (outside : ¬ IsSection sections place) : Fits sections place value
  | mapping {place : List String} {fields : Fields} (inside : IsSection sections place)
      (distinct : fields.names.Nodup) (undotted : ∀ entry ∈ fields, path entry.1 = [entry.1])
      (inner : ∀ entry ∈ fields, Fits sections (place ++ [entry.1]) entry.2) :
      Fits sections place (.object fields)

section

variable {sections : List (List String)} {place : List String}

theorem Shaped.section_of_object {fields : Fields}
    (shaped : Shaped sections place (.object fields)) : IsSection sections place := by
  cases shaped with
  | plain plain _ => cases plain
  | mapping inside _ => exact inside

theorem Shaped.inner_of_object {fields : Fields} (shaped : Shaped sections place (.object fields))
    {name : String} {value : Json} (found : fields.get? name = some value) :
    Shaped sections (place ++ [name]) value := by
  cases shaped with
  | plain plain _ => cases plain
  | mapping _ inner => exact inner name value found

theorem Shaped.exists_object {value : Json} (shaped : Shaped sections place value)
    (inside : IsSection sections place) : ∃ fields, value = .object fields := by
  cases shaped with
  | plain _ outside => exact absurd inside outside
  | mapping _ _ => exact ⟨_, rfl⟩

theorem Shaped.plain_of_outside {value : Json} (shaped : Shaped sections place value)
    (outside : ¬ IsSection sections place) : isMapping value = false := by
  cases shaped with
  | plain plain _ => exact plain
  | mapping inside _ => exact absurd inside outside

theorem Shaped.put {fields : Fields} (shaped : Shaped sections place (.object fields))
    {name : String} {value : Json} (fits : Shaped sections (place ++ [name]) value) :
    Shaped sections place (.object (fields.put name value)) := by
  refine .mapping shaped.section_of_object ?_
  intro other found looked
  rw [Fields.get?_put] at looked
  by_cases same : name = other
  · subst same
    rw [if_pos rfl] at looked
    obtain rfl := Option.some.inj looked
    exact fits
  · rw [if_neg same] at looked
    exact shaped.inner_of_object looked

theorem Fits.shaped {value : Json} (fits : Fits sections place value) :
    Shaped sections place value := by
  induction fits with
  | plain plain outside => exact .plain plain outside
  | mapping inside _ _ _ ih =>
    exact .mapping inside fun name value found => ih (name, value) (Fields.mem_of_get? found)

end

/-- The mapping in which a path goes on. It is empty where there was none. -/
theorem Shaped.exists_inner {sections : List (List String)} {place : List String} {fields : Fields}
    {part : String} (shaped : Shaped sections place (.object fields))
    (inside : IsSection sections (place ++ [part])) :
    ∃ inner, Shaped sections (place ++ [part]) (.object inner) ∧
      (∀ next rest,
        at? (part :: next :: rest) (.object fields) = at? (next :: rest) (.object inner)) ∧
      (∀ leaf, leaf? (part :: leaf) (.object fields) = leaf? leaf (.object inner)) ∧
      ∀ mapping change next rest, update mapping change (part :: next :: rest) fields =
        (update mapping change (next :: rest) inner).map fun inner =>
          fields.put part (.object inner) := by
  cases found : fields.get? part with
  | none =>
    refine ⟨[], .mapping inside (fun name value looked => by cases looked), ?_, ?_, ?_⟩
    · intro next rest
      rw [at?, found]
      rfl
    · intro leaf
      rw [leaf?_cons, found]
      cases leaf <;> rfl
    · intro mapping change next rest
      simp only [update, found]
  | some value =>
    have below := shaped.inner_of_object found
    obtain ⟨inner, rfl⟩ := below.exists_object inside
    refine ⟨inner, below, ?_, ?_, ?_⟩
    · intro next rest
      simp [at?, found]
    · intro leaf
      rw [leaf?_cons, found]
      rfl
    · intro mapping change next rest
      simp only [update, found]

/-- A change at a path that leads through sections goes through. It changes the leaves below the
path, and no others. -/
theorem update_spec {sections : List (List String)} {mapping : Bool}
    {change : Option Json → Except Blocked Json} {new : Json} (target : List String)
    (somewhere : target ≠ []) (place : List String) (fields : Fields)
    (shaped : Shaped sections place (.object fields)) (leads : Leads sections place target)
    (changed : change (at? target (.object fields)) = .ok new)
    (fits : Shaped sections (place ++ target) new) :
    ∃ updated, update mapping change target fields = .ok updated ∧
      Shaped sections place (.object updated) ∧
      ∀ leaf, leaf? leaf (.object updated) =
        if target <+: leaf then leaf? (leaf.drop target.length) new
        else leaf? leaf (.object fields) := by
  induction target generalizing place fields with
  | nil => exact absurd rfl somewhere
  | cons part rest ih =>
    cases rest with
    | nil =>
      have found : at? [part] (.object fields) = fields.get? part := by
        cases looked : fields.get? part <;> simp [at?, looked]
      rw [found] at changed
      refine ⟨fields.put part new, by simp [update, changed, Except.map], shaped.put fits, ?_⟩
      intro leaf
      cases leaf with
      | nil => simp [leaf?_nil]
      | cons first later =>
        rw [leaf?_cons, leaf?_cons, Fields.get?_put]
        by_cases same : part = first <;> simp [same]
    | cons next rest =>
      obtain ⟨inner, below, found, same, stepped⟩ := shaped.exists_inner leads.2.1
      rw [found] at changed
      rw [← List.singleton_append, ← List.append_assoc] at fits
      obtain ⟨updated, done, shaped', leaves'⟩ :=
        ih (List.cons_ne_nil next rest) (place ++ [part]) inner below leads.2 changed fits
      refine ⟨fields.put part (.object updated), by rw [stepped, done]; rfl, shaped.put shaped', ?_⟩
      intro leaf
      cases leaf with
      | nil => simp [leaf?_nil]
      | cons first later =>
        rw [leaf?_cons, Fields.get?_put]
        by_cases here : part = first
        · subst here
          simp [leaves', same]
        · simp [here, leaf?_cons]

/-! ## Laying values over others -/

theorem path_ne_nil (key : String) : path key ≠ [] := by
  simpa [path] using splitAt_ne_nil '.' key.toList

theorem at?_shaped {sections : List (List String)} {value found : Json} (target : List String)
    {place : List String} (shaped : Shaped sections place value)
    (looked : at? target value = some found) : Shaped sections (place ++ target) found := by
  induction target generalizing place value with
  | nil =>
    obtain rfl := Option.some.inj looked
    rwa [List.append_nil]
  | cons part rest ih =>
    cases value with
    | object fields =>
      rw [at?] at looked
      obtain ⟨inner, here, later⟩ := Option.bind_eq_some_iff.mp looked
      have below := ih (shaped.inner_of_object here) later
      rwa [List.append_assoc] at below
    | null | bool | int | float | text | list => cases looked

/-- A value can be laid over whatever stands at a place. Its leaves then count before those that
were there. -/
def Lays (sections : List (List String)) (place : List String) (value : Json) : Prop :=
  ∀ old : Option Json, (∀ before, old = some before → Shaped sections place before) →
    ∃ new, lay value old = .ok new ∧ Shaped sections place new ∧
      ∀ leaf, leaf? leaf new = (lastGiven (leaves value) leaf).or (old.bind (leaf? leaf))

section

variable {sections : List (List String)} {place : List String} {fields : Fields}

/-- One value is laid over what a mapping holds at a path. -/
theorem Lays.update_eq {target : List String} {value : Json} (somewhere : target ≠ [])
    (lays : Lays sections (place ++ target) value) (leads : Leads sections place target)
    (shaped : Shaped sections place (.object fields)) :
    ∃ updated, update (isMapping value) (lay value) target fields = .ok updated ∧
      Shaped sections place (.object updated) ∧
      ∀ leaf, leaf? leaf (.object updated) =
        (lastGiven (below target (leaves value)) leaf).or (leaf? leaf (.object fields)) := by
  obtain ⟨new, laid, fits, given⟩ :=
    lays (at? target (.object fields)) fun before looked => at?_shaped target shaped looked
  obtain ⟨updated, done, shaped', leaves'⟩ :=
    update_spec target somewhere place fields shaped leads laid fits
  refine ⟨updated, done, shaped', ?_⟩
  intro leaf
  rw [leaves', lastGiven_below]
  by_cases starts : target <+: leaf
  · obtain ⟨later, rfl⟩ := starts
    simp [given, leaf?_append]
  · simp [starts]

/-- The fields of a mapping are laid over another one in turn. -/
theorem mergeInto_spec (items : List (String × Json))
    (each : ∀ item ∈ items, Leads sections place (path item.1) ∧
      Lays sections (place ++ path item.1) item.2)
    (shaped : Shaped sections place (.object fields)) :
    ∃ merged, mergeInto items fields = .ok merged ∧ Shaped sections place (.object merged) ∧
      ∀ leaf, leaf? leaf (.object merged) =
        (lastGiven (leavesOf items) leaf).or (leaf? leaf (.object fields)) := by
  induction items generalizing fields with
  | nil => exact ⟨fields, rfl, shaped, fun leaf => rfl⟩
  | cons item items ih =>
    obtain ⟨key, value⟩ := item
    obtain ⟨leads, lays⟩ := each (key, value) List.mem_cons_self
    obtain ⟨updated, done, shaped', given⟩ := lays.update_eq (path_ne_nil key) leads shaped
    obtain ⟨merged, rest, shaped'', given'⟩ :=
      ih (fun other member => each other (List.mem_cons_of_mem _ member)) shaped'
    refine ⟨merged, by rw [mergeInto, done]; exact rest, shaped'', ?_⟩
    intro leaf
    rw [given', given, leavesOf, lastGiven_append, Option.or_assoc]

theorem lastGiven_leavesOf_nil (fields : Fields) : lastGiven (leavesOf fields) [] = none := by
  induction fields with
  | nil => rfl
  | cons entry rest ih =>
    obtain ⟨key, value⟩ := entry
    rw [leavesOf, lastGiven_append, ih, lastGiven_below, if_neg]
    · rfl
    · rw [List.prefix_nil]
      exact path_ne_nil key

theorem lastGiven_leavesOf_cons (distinct : fields.names.Nodup)
    (undotted : ∀ entry ∈ fields, path entry.1 = [entry.1]) (part : String) (later : List String) :
    lastGiven (leavesOf fields) (part :: later) =
      (fields.get? part).bind fun value => lastGiven (leaves value) later := by
  induction fields with
  | nil => rfl
  | cons entry rest ih =>
    obtain ⟨key, value⟩ := entry
    obtain ⟨fresh, distinct⟩ := List.nodup_cons.mp distinct
    have single : path key = [key] := undotted (key, value) List.mem_cons_self
    rw [leavesOf, lastGiven_append, lastGiven_below, single, Fields.get?_cons,
      ih distinct fun other member => undotted other (List.mem_cons_of_mem _ member)]
    by_cases same : key = part
    · subst same
      simp [Fields.get?_eq_none fresh]
    · simp [same]

end

/-- The leaves of a value that fits are found where they are given. -/
theorem Fits.leaf?_eq {sections : List (List String)} {place : List String} {value : Json}
    (fits : Fits sections place value) (leaf : List String) :
    leaf? leaf value = lastGiven (leaves value) leaf := by
  induction fits generalizing leaf with
  | plain plain _ =>
    rw [leaf?_plain plain, leaves_plain plain, lastGiven_cons]
    cases leaf <;> rfl
  | @mapping place fields _ distinct undotted _ ih =>
    rw [leaves]
    cases leaf with
    | nil => rw [leaf?_nil, lastGiven_leavesOf_nil]
    | cons part later =>
      rw [leaf?_cons, lastGiven_leavesOf_cons distinct undotted]
      cases found : fields.get? part with
      | none => rfl
      | some value => exact ih (part, value) (Fields.mem_of_get? found) later

theorem Fits.lays {sections : List (List String)} {place : List String} {value : Json}
    (fits : Fits sections place value) : Lays sections place value := by
  induction fits with
  | @plain place value plain outside =>
    intro old shaped
    have laid : lay value old = .ok value := by
      cases value <;> simp_all [lay, isMapping]
    refine ⟨value, laid, .plain plain outside, ?_⟩
    intro leaf
    rw [leaf?_plain plain, leaves_plain plain, lastGiven_cons]
    cases leaf with
    | nil => simp [lastGiven]
    | cons part later =>
      cases old with
      | none => rfl
      | some before =>
        have before_plain := (shaped before rfl).plain_of_outside outside
        simp [lastGiven, leaf?_plain before_plain]
  | @mapping place fields inside distinct undotted inner ih =>
    intro old shaped
    have whole : Fits sections place (.object fields) := .mapping inside distinct undotted inner
    cases old with
    | none =>
      refine ⟨.object fields, rfl, whole.shaped, ?_⟩
      intro leaf
      rw [whole.leaf?_eq]
      simp
    | some before =>
      have known := shaped before rfl
      obtain ⟨old, rfl⟩ := known.exists_object inside
      obtain ⟨merged, done, shaped', given⟩ := mergeInto_spec fields (fun item member => by
        rw [undotted item member]
        exact ⟨⟨inside, trivial⟩, ih item member⟩) known
      exact ⟨.object merged, by rw [lay, done]; rfl, shaped', given⟩

end Settings

end Inlay
