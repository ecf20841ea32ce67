import Inlay.Settings.Load
import Inlay.Proofs.Leaves

/-!
All spellings of a setting mean the same, and the last one counts.

Settings come as entries whose keys may be dotted and whose values may be mappings, and each entry
gives values to leaves. Entries agree when what one of them gives as a mapping no other gives as a
plain value. The nested mapping then holds at each leaf what was given to it last, however it was
spelled.
-/

namespace Inlay.Settings

open Inlay.Json Inlay.Text

/-- The path of the setting that a key names, if it names one: behind the name of the section, or
alone. The name of the section itself names all settings. -/
def place? (known : List String) (key : String) : Option (List String) :=
  match path key with
  | [] => none
  | [name] => if name = sectionName then some [] else if name ∈ known then some [name] else none
  | name :: first :: rest =>
    if name = sectionName ∧ first ∈ known then some (first :: rest) else none

/-- What an entry gives to which places, in order. -/
def given (known : List String) (entry : String × Json) : List (List String × Json) :=
  match place? known entry.1 with
  | some place => below place (leaves entry.2)
  | none => []

/-- The ways in which an entry may be spelled. -/
inductive Spelled (known : List String) (sections : List (List String)) : String × Json → Prop
  /-- A leaf or a section under its own name. -/
  | named {key : String} {value : Json} {place : List String}
      (names : place? known key = some place) (somewhere : place ≠ [])
      (leads : Leads sections [] place) (fits : Fits sections place value) :
      Spelled known sections (key, value)
  /-- Leaves and sections in a mapping, whose names may be dotted. -/
  | together {fields : Fields}
      (each : ∀ item ∈ fields, Leads sections [] (path item.1) ∧
        Fits sections (path item.1) item.2) :
      Spelled known sections (sectionName, .object fields)
  /-- Something else. -/
  | foreign {key : String} {value : Json} (names : place? known key = none) :
      Spelled known sections (key, value)

/-- The key does not start with the name of the section and is no setting itself. -/
def isUnrelated (known : List String) (key : String) : Bool :=
  (path key).head? != some sectionName && !known.contains key

section

variable {known : List String} {sections : List (List String)}

theorem path_eq_singleton {key name : String} (single : path key = [name]) : name = key := by
  obtain ⟨piece, pieces, rfl⟩ := List.map_eq_singleton_iff.mp single
  rw [splitAt_eq_singleton pieces, String.ofList_toList]

theorem place?_unrelated {key : String} (unrelated : isUnrelated known key = true) :
    place? known key = none := by
  obtain ⟨outside, unknown⟩ : (path key).head? ≠ some sectionName ∧ key ∉ known := by
    simpa [isUnrelated] using unrelated
  unfold place?
  split
  · rfl
  · next name single =>
    obtain rfl := path_eq_singleton single
    have other : name ≠ sectionName := by
      rintro rfl
      exact outside (by rw [single]; rfl)
    rw [if_neg other, if_neg unknown]
  · next name first rest several =>
    have other : name ≠ sectionName := by
      rintro rfl
      exact outside (by rw [several]; rfl)
    rw [if_neg fun both => other both.1]

theorem add_eq (nested : Fields) (key : String) (value : Json) :
    add known nested key value =
      match place? known key with
      | none => .ok nested
      | some [] =>
        match value with
        | .object fields => mergeInto fields nested
        | _ => .ok nested
      | some place => update (isMapping value) (lay value) place nested := by
  unfold add place?
  match path key with
  | [] => rfl
  | [name] =>
    by_cases own : name = sectionName
    · dsimp only
      rewrite [if_pos own, if_pos own]
      rfl
    · by_cases listed : name ∈ known <;> simp only [own, listed, if_true, if_false]
  | name :: first :: rest =>
    by_cases own : name = sectionName ∧ first ∈ known
    · simp only [if_pos own]
    · simp only [if_neg own]

/-- One entry is added. -/
theorem Spelled.add_eq {key : String} {value : Json} (spelled : Spelled known sections (key, value))
    {nested : Fields} (shaped : Shaped sections [] (.object nested)) :
    ∃ added, add known nested key value = .ok added ∧ Shaped sections [] (.object added) ∧
      ∀ leaf, leaf? leaf (.object added) =
        (lastGiven (given known (key, value)) leaf).or (leaf? leaf (.object nested)) := by
  rw [Settings.add_eq]
  cases spelled with
  | @named _ _ place names somewhere leads fits =>
    simp only [given, names]
    obtain ⟨part, rest, rfl⟩ := List.exists_cons_of_ne_nil somewhere
    exact fits.lays.update_eq somewhere leads shaped
  | @together fields each =>
    have names : place? known sectionName = some [] := rfl
    simp only [given, names]
    obtain ⟨merged, done, shaped', leaves'⟩ := mergeInto_spec fields
      (fun item member => ⟨(each item member).1, (each item member).2.lays⟩) shaped
    refine ⟨merged, done, shaped', ?_⟩
    intro leaf
    rw [leaves', lastGiven_below, leaves]
    simp
  | foreign names =>
    simp only [given, names]
    exact ⟨nested, rfl, shaped, fun leaf => rfl⟩

/-- Adds entries in turn. -/
def addAll (known : List String) (nested settings : Fields) : Except Blocked Fields :=
  settings.foldlM (fun nested (key, value) => add known nested key value) nested

theorem addAll_cons (nested settings : Fields) (key : String) (value : Json) :
    addAll known nested ((key, value) :: settings) =
      match add known nested key value with
      | .ok added => addAll known added settings
      | .error e => .error e := by
  have bound : addAll known nested ((key, value) :: settings) =
      add known nested key value >>= fun added => addAll known added settings :=
    List.foldlM_cons
  rw [bound]
  cases add known nested key value <;> rfl

theorem addAll_spec {settings : Fields} (spelled : ∀ entry ∈ settings, Spelled known sections entry)
    {nested : Fields} (shaped : Shaped sections [] (.object nested)) :
    ∃ final, addAll known nested settings = .ok final ∧ Shaped sections [] (.object final) ∧
      ∀ leaf, leaf? leaf (.object final) =
        (lastGiven (settings.flatMap (given known)) leaf).or (leaf? leaf (.object nested)) := by
  induction settings generalizing nested with
  | nil => exact ⟨nested, rfl, shaped, fun leaf => rfl⟩
  | cons entry rest ih =>
    obtain ⟨key, value⟩ := entry
    obtain ⟨added, done, shaped', leaves'⟩ :=
      (spelled (key, value) List.mem_cons_self).add_eq shaped
    obtain ⟨final, done', shaped'', leaves''⟩ :=
      ih (fun other member => spelled other (List.mem_cons_of_mem _ member)) shaped'
    refine ⟨final, ?_, shaped'', ?_⟩
    · rw [addAll_cons, done]
      exact done'
    · intro leaf
      rw [leaves'', leaves', List.flatMap_cons, lastGiven_append, Option.or_assoc]

/-- Entries with unrelated keys change nothing. -/
theorem addAll_filter (nested settings : Fields) :
    addAll known nested (settings.filter fun entry => !isUnrelated known entry.1) =
      addAll known nested settings := by
  induction settings generalizing nested with
  | nil => rfl
  | cons entry rest ih =>
    obtain ⟨key, value⟩ := entry
    rw [addAll_cons, List.filter_cons]
    by_cases unrelated : isUnrelated known key = true
    · have skipped : add known nested key value = .ok nested := by
        rw [Settings.add_eq, place?_unrelated unrelated]
      simp [unrelated, skipped, ih]
    · simp [unrelated, addAll_cons, ih]

end

/-- However settings are spelled and in whatever order they come, the nested mapping that is checked
holds at each leaf what was given to it last, and no other leaf. Unrelated keys make no
difference. -/
theorem last_spelling_counts (sections : List (List String)) (settings : Fields)
    (spelled : ∀ entry ∈ settings, Spelled Check.settingKeys sections entry) :
    ∃ nested,
      (∀ leaf, leaf? leaf (.object nested) =
        lastGiven (settings.flatMap (given Check.settingKeys)) leaf) ∧
      ∀ others : Fields,
        (others.filter fun entry => !isUnrelated Check.settingKeys entry.1) =
          (settings.filter fun entry => !isUnrelated Check.settingKeys entry.1) →
        nest Check.settingKeys others = .ok nested ∧
          ∀ check : Validator, configureBy check others = (check nested).mapError .faults := by
  have root : Shaped sections [] (.object []) := .mapping (.inl rfl) fun name value found => by
    cases found
  obtain ⟨nested, done, -, leaves'⟩ := addAll_spec spelled root
  refine ⟨nested, ?_, ?_⟩
  · intro leaf
    rw [leaves']
    cases leaf <;> simp [leaf?_nil, leaf?_cons, Fields.get?]
  · intro others same
    have reached : nest Check.settingKeys others = .ok nested := by
      change addAll Check.settingKeys [] others = .ok nested
      rw [← addAll_filter, same, addAll_filter]
      exact done
    refine ⟨reached, fun check => ?_⟩
    rw [configureBy, reached]
    simp only
    cases check nested <;> rfl

/-- A section of plain values. -/
theorem Fits.flat {sections : List (List String)} {place : List String} {fields : Fields}
    (inside : IsSection sections place) (distinct : fields.names.Nodup)
    (each : ∀ entry ∈ fields, path entry.1 = [entry.1] ∧ isMapping entry.2 = false ∧
      ¬ IsSection sections (place ++ [entry.1])) : Fits sections place (.object fields) :=
  .mapping inside distinct (fun entry member => (each entry member).1) fun entry member =>
    .plain (each entry member).2.1 (each entry member).2.2

/-- Three features, a delay and a colour in all spellings, and a key of someone else. -/
def mixedSettings : Fields :=
  [("editor.fontSize", .int 14),
   ("features", .object [("variableType", .bool true), ("highlightAny", .bool false)]),
   ("inlineTypes.features.variableType", .bool false),
   ("inlineTypes", .object [("features.propertyType", .bool false), ("updateDelay", .int 5),
     ("features", .object [("highlightAny", .bool true)])]),
   ("inlineTypes.darkThemeDecorationStyle", .object [("color", .text "red")]),
   ("updateDelay", .int 300)]

theorem mixedSettings_spelled :
    ∀ entry ∈ mixedSettings, Spelled Check.settingKeys
      [["features"], ["lightThemeDecorationStyle"], ["darkThemeDecorationStyle"]] entry := by
  have names : place? Check.settingKeys "editor.fontSize" = none ∧
      place? Check.settingKeys "features" = some ["features"] ∧
      place? Check.settingKeys "inlineTypes.features.variableType" =
        some ["features", "variableType"] ∧
      place? Check.settingKeys "inlineTypes.darkThemeDecorationStyle" =
        some ["darkThemeDecorationStyle"] ∧
      place? Check.settingKeys "updateDelay" = some ["updateDelay"] := by
    decide +kernel
  obtain ⟨editor, features, feature, dark, delay⟩ := names
  simp only [mixedSettings, List.forall_mem_cons, List.not_mem_nil, false_implies, implies_true,
    and_true]
  refine ⟨.foreign editor, .named features (by decide) ⟨.inl rfl, trivial⟩ ?_,
    .named feature (by decide) ⟨.inl rfl, .inr (by decide), trivial⟩ ?_, .together ?_,
    .named dark (by decide) ⟨.inl rfl, trivial⟩ ?_, .named delay (by decide) ⟨.inl rfl, trivial⟩ ?_⟩
  · exact .flat (by decide) (by decide) (by decide +kernel)
  · exact .plain rfl (by decide)
  · have parts : path "features.propertyType" = ["features", "propertyType"] ∧
        path "updateDelay" = ["updateDelay"] ∧ path "features" = ["features"] := by
      decide +kernel
    simp only [List.forall_mem_cons, List.not_mem_nil, false_implies, implies_true, and_true, parts]
    refine ⟨⟨⟨.inl rfl, .inr (by decide), trivial⟩, ?_⟩, ⟨⟨.inl rfl, trivial⟩, ?_⟩,
      ⟨.inl rfl, trivial⟩, ?_⟩
    · exact .plain rfl (by decide)
    · exact .plain rfl (by decide)
    · exact .flat (by decide) (by decide) (by decide +kernel)
  · exact .flat (by decide) (by decide) (by decide +kernel)
  · exact .plain rfl (by decide)

theorem given_mixedSettings :
    mixedSettings.flatMap (given Check.settingKeys) =
      [(["features", "variableType"], .bool true), (["features", "highlightAny"], .bool false),
       (["features", "variableType"], .bool false), (["features", "propertyType"], .bool false),
       (["updateDelay"], .int 5), (["features", "highlightAny"], .bool true),
       (["darkThemeDecorationStyle", "color"], .text "red"), (["updateDelay"], .int 300)] := by
  decide +kernel

/-- Of each setting the last value counts, and the key of someone else makes no difference. -/
theorem mixed_spellings_count :
    ∃ nested, nest Check.settingKeys mixedSettings = .ok nested ∧
      nest Check.settingKeys (mixedSettings.drop 1) = .ok nested ∧
      leaf? ["features", "variableType"] (.object nested) = some (.bool false) ∧
      leaf? ["features", "highlightAny"] (.object nested) = some (.bool true) ∧
      leaf? ["features", "propertyType"] (.object nested) = some (.bool false) ∧
      leaf? ["features", "parameterName"] (.object nested) = none ∧
      leaf? ["updateDelay"] (.object nested) = some (.int 300) ∧
      leaf? ["darkThemeDecorationStyle", "color"] (.object nested) = some (.text "red") := by
  obtain ⟨nested, last, same⟩ := last_spelling_counts _ mixedSettings mixedSettings_spelled
  rw [given_mixedSettings] at last
  refine ⟨nested, (same _ rfl).1, (same _ (by decide +kernel)).1, ?_⟩
  simp only [last, lastGiven_cons]
  simp [lastGiven]

end Inlay.Settings
