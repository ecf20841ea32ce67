import Inlay.Proofs.Collision

/-!
Settings under their own names, without the name of the section in front.

A key without a dot means the same with the name of the section in front and without it. A dotted
key that names something below a setting counts for nothing without the section. For each such key
there is a value that shows the difference: `null`, which is refused wherever it is put.
-/

namespace Inlay.Settings

open Inlay.Json Inlay.Text

/-- The key behind the name of the section. -/
def qualify (key : String) : String := sectionName ++ "." ++ key

/-- The settings with all keys behind the name of the section. -/
def qualified (settings : Fields) : Fields :=
  settings.map fun entry => (qualify entry.1, entry.2)

/-- The key names a setting or something below one. -/
def NamesSetting (key : String) : Prop := ∃ name ∈ Check.settingKeys, (path key).head? = some name

instance (key : String) : Decidable (NamesSetting key) :=
  inferInstanceAs (Decidable (∃ name ∈ Check.settingKeys, (path key).head? = some name))

def isDotted (key : String) : Bool := key.toList.contains '.'

/-! ## Paths -/

theorem path_qualify (key : String) : path (qualify key) = sectionName :: path key := by
  have text : (qualify key).toList = sectionName.toList ++ '.' :: key.toList := by
    rw [qualify, String.toList_append, String.toList_append, List.append_assoc]
    rfl
  have clean : '.' ∉ sectionName.toList := by decide
  rw [path, text, splitAt_append_cons clean, List.map_cons, String.ofList_toList, path]

theorem path_of_undotted {key : String} (undotted : isDotted key = false) : path key = [key] := by
  have clean : '.' ∉ key.toList := by simpa [isDotted] using undotted
  rw [path, splitAt_of_not_mem clean, List.map_singleton, String.ofList_toList]

theorem undotted_of_path {key name : String} (single : path key = [name]) :
    isDotted key = false := by
  obtain ⟨piece, pieces, -⟩ := List.map_eq_singleton_iff.mp single
  have whole : key.toList ∈ splitAt '.' key.toList := by
    rw [pieces, splitAt_eq_singleton pieces]
    exact List.mem_cons_self
  simpa [isDotted] using not_mem_of_mem_splitAt whole

theorem path_of_dotted {key : String} (setting : NamesSetting key) (dotted : isDotted key = true) :
    ∃ name ∈ Check.settingKeys, ∃ next rest, path key = name :: next :: rest := by
  obtain ⟨name, known, starts⟩ := setting
  match parts : path key with
  | [] => exact absurd parts (path_ne_nil key)
  | [only] => rw [undotted_of_path parts] at dotted; cases dotted
  | first :: next :: rest =>
    rw [parts] at starts
    obtain rfl : first = name := Option.some.inj starts
    exact ⟨first, known, next, rest, rfl⟩

/-! ## What is written -/

theorem ne_sectionName {name : String} (known : name ∈ Check.settingKeys) : name ≠ sectionName := by
  rintro rfl
  exact absurd known (by decide)

theorem writes_qualify {key : String} (setting : NamesSetting key) (value : Json) :
    writes Check.settingKeys (qualify key, value) = [(path key, value)] := by
  obtain ⟨name, known, starts⟩ := setting
  obtain ⟨rest, parts⟩ := List.head?_eq_some_iff.mp starts
  have place : place? Check.settingKeys (qualify key) = some (name :: rest) := by
    rw [place?, path_qualify, parts]
    dsimp only
    rw [if_pos ⟨rfl, known⟩]
  rw [writes, place, parts]

theorem writes_undotted {key : String} (setting : NamesSetting key)
    (undotted : isDotted key = false) (value : Json) :
    writes Check.settingKeys (key, value) = [(path key, value)] := by
  obtain ⟨name, known, starts⟩ := setting
  have single := path_of_undotted undotted
  obtain rfl : key = name := by
    rw [single] at starts
    exact Option.some.inj starts
  have place : place? Check.settingKeys key = some [key] := by
    rw [place?, single]
    dsimp only
    rw [if_neg (ne_sectionName known), if_pos known]
  rw [writes, place, single]

theorem writes_dotted {key : String} (setting : NamesSetting key) (dotted : isDotted key = true)
    (value : Json) : writes Check.settingKeys (key, value) = [] := by
  obtain ⟨name, known, next, rest, parts⟩ := path_of_dotted setting dotted
  have place : place? Check.settingKeys key = none := by
    rw [place?, parts]
    dsimp only
    rw [if_neg fun both => ne_sectionName known both.1]
  rw [writes, place]

/-- The names without dots write what they write behind the name of the section, and the others
nothing. -/
theorem flatMap_writes {settings : Fields} (own : ∀ entry ∈ settings, NamesSetting entry.1) :
    settings.flatMap (writes Check.settingKeys) =
      (qualified (settings.filter fun entry => !isDotted entry.1)).flatMap
        (writes Check.settingKeys) := by
  induction settings with
  | nil => rfl
  | cons entry rest ih =>
    obtain ⟨key, value⟩ := entry
    have setting : NamesSetting key := own (key, value) List.mem_cons_self
    have later := ih fun entry member => own entry (List.mem_cons_of_mem _ member)
    rw [List.flatMap_cons, List.filter_cons, later]
    cases dotted : isDotted key with
    | true => rw [writes_dotted setting dotted]; rfl
    | false =>
      rw [writes_undotted setting dotted, ← writes_qualify setting]
      rfl

theorem configureBy_eq_undotted (check : Validator) {settings : Fields}
    (own : ∀ entry ∈ settings, NamesSetting entry.1) :
    configureBy check settings =
      configureBy check (qualified (settings.filter fun entry => !isDotted entry.1)) := by
  rw [configureBy, configureBy, nest_eq_writeAll, nest_eq_writeAll, flatMap_writes own]

/-! ## A value that no setting takes -/

/-- Neither `null` nor a mapping is read as a switch, a number or a text. -/
def Unreadable (value : Json) : Prop := value = .null ∨ ∃ fields, value = .object fields

/-- What is asked of a check: nothing has to be given, and no setting takes a mapping with `null` or
a mapping in its only field. -/
structure RefusesNull (check : Validator) : Prop where
  empty : ∃ configuration, check [] = .ok configuration
  field : ∀ {name part value}, name ∈ Check.settingKeys → Unreadable value →
    ∀ configuration, check [(name, .object [(part, value)])] ≠ .ok configuration

/-- The reader refuses the value with a complaint. -/
def Refuses {α : Type} (read : Json → Checked α) (value : Json) : Prop :=
  ∃ complaint, read value = .refuse complaint

section

variable {value : Json} (unreadable : Unreadable value)

include unreadable

theorem refuses_bool : Refuses Check.bool value := by
  rcases unreadable with rfl | ⟨fields, rfl⟩ <;> exact ⟨_, rfl⟩

theorem refuses_share : Refuses Check.share value := by
  rcases unreadable with rfl | ⟨fields, rfl⟩ <;> exact ⟨_, rfl⟩

theorem refuses_color : Refuses Check.color value := by
  rcases unreadable with rfl | ⟨fields, rfl⟩ <;> exact ⟨_, rfl⟩

end

theorem get?_singleton_eq_some {part name : String} {value found : Json}
    (gives : Fields.get? [(part, value)] name = some found) : name = part ∧ found = value := by
  rw [Fields.get?_cons] at gives
  split at gives
  · next same => exact ⟨same.symm, (Option.some.inj gives).symm⟩
  · cases gives

theorem given?_singleton_eq_some {part key name : String} {value found : Json}
    (gives : Check.given? [(part, value)] key = some (name, found)) :
    name = part ∧ found = value := by
  unfold Check.given? at gives
  split at gives
  · next direct =>
    obtain ⟨rfl, rfl⟩ := Prod.mk.inj (Option.some.inj gives)
    exact get?_singleton_eq_some direct
  · obtain ⟨_, other, same⟩ := Option.map_eq_some_iff.mp gives
    obtain ⟨rfl, rfl⟩ := Prod.mk.inj same
    exact get?_singleton_eq_some other

/-- A field that stands alone and is known is given by one of the names. -/
theorem exists_given?_of_extras {keys : List String} {part : String} {value : Json}
    (known : Check.extras keys [(part, value)] = []) :
    ∃ key ∈ keys, Check.given? [(part, value)] key = some (part, value) := by
  have used : part ∈ keys.filterMap fun key => (Check.given? [(part, value)] key).map (·.1) := by
    simpa [Check.extras, Fields.names] using known
  obtain ⟨key, listed, name⟩ := List.mem_filterMap.mp used
  obtain ⟨⟨_, found⟩, gives, rfl⟩ := Option.map_eq_some_iff.mp name
  obtain ⟨-, rfl⟩ := given?_singleton_eq_some gives
  exact ⟨key, listed, gives⟩

theorem field_eq_error {α : Type} {fields : Fields} {key name : String} {value : Json}
    {read : Json → Checked α} (standard : α) (gives : Check.given? fields key = some (name, value))
    (refuses : Refuses read value) :
    ∃ fault, Check.field fields key standard read = .error [fault] := by
  obtain ⟨complaint, refused⟩ := refuses
  refine ⟨⟨[name], complaint⟩, ?_⟩
  rw [Check.field, gives]
  dsimp only
  rw [refused]
  rfl

theorem features_ne_ok {part : String} {value : Json} (unreadable : Unreadable value)
    (features : Features) : Check.features (.object [(part, value)]) ≠ .ok features := by
  intro checked
  unfold Check.features at checked
  dsimp only at checked
  split at checked
  · next clean =>
    obtain ⟨noFault, known⟩ := List.append_eq_nil_iff.mp (List.isEmpty_iff.mp clean)
    obtain ⟨key, listed, gives⟩ := exists_given?_of_extras known
    obtain ⟨feature, every, rfl⟩ := List.mem_map.mp listed
    obtain ⟨fault, failed⟩ :=
      field_eq_error (Features.standard.enabled feature) gives (refuses_bool unreadable)
    have none := List.flatMap_eq_nil_iff.mp noFault _ (List.mem_map_of_mem every)
    rw [failed] at none
    cases none
  · cases checked

theorem style_ne_ok {part : String} {value : Json} (unreadable : Unreadable value)
    (style : Style) : Check.style (.object [(part, value)]) ≠ .ok style := by
  intro checked
  unfold Check.style at checked
  dsimp only at checked
  split at checked
  · next opacity plain warn known =>
    obtain ⟨key, listed, gives⟩ := exists_given?_of_extras known
    simp only [List.mem_cons, List.not_mem_nil, or_false] at listed
    rcases listed with rfl | rfl | rfl
    · obtain ⟨fault, failed⟩ := field_eq_error _ gives (refuses_share unreadable)
      rw [failed] at opacity
      cases opacity
    · obtain ⟨fault, failed⟩ := field_eq_error _ gives (refuses_color unreadable)
      rw [failed] at plain
      cases plain
    · obtain ⟨fault, failed⟩ := field_eq_error _ gives (refuses_color unreadable)
      rw [failed] at warn
      cases warn
  · cases checked

theorem read_of_field_singleton {α : Type} {name : String} {value : Json} {standard accepted : α}
    {read : Json → Checked α}
    (checked : Check.field [(name, value)] name standard read = .ok accepted) :
    read value = .ok accepted := by
  have gives : Check.given? [(name, value)] name = some (name, value) := by
    rw [Check.given?, Fields.get?_cons, if_pos rfl]
  rw [Check.field, gives] at checked
  dsimp only at checked
  cases done : read value with
  | ok result => rw [done] at checked; exact congrArg _ (Except.ok.inj checked)
  | error faults => rw [done] at checked; cases checked

/-- No setting takes a mapping whose only field has such a value. -/
theorem configuration_ne_ok {name part : String} {value : Json}
    (known : name ∈ Check.settingKeys) (unreadable : Unreadable value)
    (configuration : Configuration) :
    Check.configuration [(name, .object [(part, value)])] ≠ .ok configuration := by
  intro checked
  unfold Check.configuration at checked
  dsimp only at checked
  split at checked
  · next shown delay light dark _ =>
    -- the setting that is given is read, and the others have their defaults
    simp only [Check.settingKeys, List.mem_cons, List.not_mem_nil, or_false] at known
    rcases known with rfl | rfl | rfl | rfl
    · exact features_ne_ok unreadable _ (read_of_field_singleton shown)
    · cases read_of_field_singleton delay
    · exact style_ne_ok unreadable _ (read_of_field_singleton light)
    · exact style_ne_ok unreadable _ (read_of_field_singleton dark)
  · cases checked

theorem write_nil_cons {part next : String} {rest : List String} {value : Json} {fields : Fields}
    (written : write [] (next :: rest, value) = .ok fields) :
    write [] (part :: next :: rest, value) = .ok [(part, .object fields)] := by
  have absent : Fields.get? [] part = none := rfl
  rw [write] at written ⊢
  rw [update, absent]
  dsimp only at written ⊢
  rw [written]
  rfl

/-- Where nothing was before, `null` stands in as many mappings as its place has further parts. -/
theorem write_null (part : String) (rest : List String) :
    ∃ value, write [] (part :: rest, .null) = .ok [(part, value)] ∧ Unreadable value := by
  induction rest generalizing part with
  | nil => exact ⟨.null, by rw [write, update]; rfl, .inl rfl⟩
  | cons next rest ih =>
    obtain ⟨value, written, -⟩ := ih next
    exact ⟨.object [(next, value)], write_nil_cons written, .inr ⟨_, rfl⟩⟩

/-! ## With and without the section -/

theorem refusesNull_configuration : RefusesNull Check.configuration :=
  ⟨⟨.standard, rfl⟩, configuration_ne_ok⟩

section

variable {check : Validator} (refuses : RefusesNull check) {key : String}
  (setting : NamesSetting key) (dotted : isDotted key = true)

include setting dotted

theorem configureBy_dotted (check : Validator) (value : Json) :
    configureBy check [(key, value)] = (check []).mapError .faults := by
  have nests : nest Check.settingKeys [(key, value)] = .ok [] := by
    rw [nest_eq_writeAll, List.flatMap_singleton, writes_dotted setting dotted]
    rfl
  rw [configureBy, nests]
  dsimp only
  cases check [] <;> rfl

include refuses

theorem configureBy_qualify_null_ne_ok (configuration : Configuration) :
    configureBy check (qualified [(key, .null)]) ≠ .ok configuration := by
  obtain ⟨name, known, next, rest, parts⟩ := path_of_dotted setting dotted
  obtain ⟨value, written, unreadable⟩ := write_null next rest
  have nests : nest Check.settingKeys (qualified [(key, .null)]) =
      .ok [(name, .object [(next, value)])] := by
    rw [nest_eq_writeAll, qualified, List.map_singleton, List.flatMap_singleton,
      writes_qualify setting, parts, writeAll_singleton]
    exact write_nil_cons written
  intro configured
  rw [configureBy, nests] at configured
  dsimp only at configured
  split at configured
  · next checked => exact refuses.field known unreadable _ checked
  · cases configured

end

theorem configureBy_undotted (check : Validator) {settings : Fields}
    (own : ∀ entry ∈ settings, NamesSetting entry.1)
    (undotted : ∀ entry ∈ settings, isDotted entry.1 = false) :
    configureBy check settings = configureBy check (qualified settings) := by
  have all : settings.filter (fun entry => !isDotted entry.1) = settings :=
    List.filter_eq_self.mpr fun entry member => by rw [undotted entry member]; rfl
  rw [configureBy_eq_undotted check own, all]

/-- If no key has a dot, the name of the section may be left out in front of all of them. Where it
is left out, dotted keys count for nothing, and each of them has a value for which that matters. -/
theorem section_optional_while_undotted {check : Validator} (refuses : RefusesNull check)
    (settings : Fields) (own : ∀ entry ∈ settings, NamesSetting entry.1) :
    ((∀ entry ∈ settings, isDotted entry.1 = false) →
        configureBy check settings = configureBy check (qualified settings)) ∧
      configureBy check settings =
        configureBy check (qualified (settings.filter fun entry => !isDotted entry.1)) ∧
      ∀ entry ∈ settings,
        ((∀ value, configureBy check [(entry.1, value)] =
            configureBy check (qualified [(entry.1, value)])) ↔
          isDotted entry.1 = false) := by
  refine ⟨configureBy_undotted check own, configureBy_eq_undotted check own,
    fun entry member => ⟨?_, ?_⟩⟩
  · intro alike
    -- without the section `null` is passed over, and with it refused
    by_contra dotted
    rw [Bool.not_eq_false] at dotted
    obtain ⟨configuration, accepted⟩ := refuses.empty
    have same := configureBy_dotted (own entry member) dotted check .null
    rw [alike .null, accepted] at same
    exact configureBy_qualify_null_ne_ok refuses (own entry member) dotted configuration same
  · intro undotted value
    refine configureBy_undotted check ?_ ?_
    · exact List.forall_mem_singleton.mpr (own entry member)
    · exact List.forall_mem_singleton.mpr undotted

/-- A delay below zero, and a feature that is no switch in a mapping. -/
def faultyOwnNames : Fields :=
  [("updateDelay", .int (-1)), ("features", .object [("variableType", .int 3)])]

/-- The same faults are reported with and without the name of the section. -/
theorem faults_reported_without_section :
    (∀ entry ∈ faultyOwnNames, NamesSetting entry.1) ∧
      configure faultyOwnNames = configure (qualified faultyOwnNames) ∧
      configure faultyOwnNames =
        .error (.faults [⟨["features", "variableType"], .unclearBool⟩,
          ⟨["updateDelay"], .belowZero⟩]) := by
  have own : ∀ entry ∈ faultyOwnNames, NamesSetting entry.1 := by decide
  have undotted : ∀ entry ∈ faultyOwnNames, isDotted entry.1 = false := by decide
  have nests : nest Check.settingKeys faultyOwnNames = .ok faultyOwnNames := by decide +kernel
  refine ⟨own, (section_optional_while_undotted refusesNull_configuration faultyOwnNames own).1
    undotted, ?_⟩
  rw [configure, configureBy, nests]
  rfl

/-- A switch that is turned off stays on if the name of the section is left out. -/
theorem dotted_switch_missed_without_section :
    ¬ ∀ settings : Fields, (∀ entry ∈ settings, NamesSetting entry.1) →
      configure settings = configure (qualified settings) := by
  intro alike
  have own : NamesSetting "features.variableType" := by decide
  have missed : configure [("features.variableType", .bool false)] = .ok .standard :=
    configureBy_dotted own (by decide) Check.configuration (.bool false)
  have nests : nest Check.settingKeys (qualified [("features.variableType", .bool false)]) =
      .ok [("features", .object [("variableType", .bool false)])] := by
    decide +kernel
  obtain ⟨configuration, taken, off⟩ : ∃ configuration,
      configure (qualified [("features.variableType", .bool false)]) = .ok configuration ∧
        configuration.features.enabled .variableType = false := by
    rw [configure, configureBy, nests]
    exact ⟨_, rfl, rfl⟩
  have same := alike [("features.variableType", .bool false)] (List.forall_mem_singleton.mpr own)
  rw [missed, taken] at same
  obtain rfl := Except.ok.inj same
  exact absurd off (by decide)

end Inlay.Settings
