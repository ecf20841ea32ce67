import Inlay.Proofs.Collision
import Inlay.Proofs.Decimal

/-!
The delay that the environment gives, and the one that counts.

The environment's delay takes the place of the delay's full name in the settings, or comes last if
they do not have it. It counts unless one of the settings behind that place gives the delay again.
-/

namespace Inlay.Settings

open Inlay.Json Inlay.Text

/-! ## The value under a name -/

/-- The value under a name is the one given last. If that is a mapping, others may have been merged
into it or have been there before. -/
def Holds (name : String) (last : Json) (nested : Fields) : Prop :=
  ∃ value, nested.get? name = some value ∧ (isMapping last = false → value = last) ∧
    (isMapping last = true → isMapping value = true)

theorem lay_eq_ok {value new : Json} {old : Option Json} (laid : lay value old = .ok new) :
    (isMapping value = false → new = value) ∧ (isMapping value = true → isMapping new = true) := by
  unfold lay at laid
  split at laid
  · next items before =>
    refine ⟨fun isPlain => (by cases isPlain), fun _ => ?_⟩
    cases merged : mergeInto items before with
    | error cause => rw [merged] at laid; cases laid
    | ok fields =>
      rw [merged] at laid
      obtain rfl := Except.ok.inj laid
      rfl
  · obtain rfl := Except.ok.inj laid
    exact ⟨fun _ => rfl, fun isObject => isObject⟩

theorem write_singleton_eq_ok {nested written : Fields} {part : String} {value : Json}
    (done : write nested ([part], value) = .ok written) :
    ∃ new, lay value (nested.get? part) = .ok new ∧ written = nested.put part new := by
  rw [write, update] at done
  cases laid : lay value (nested.get? part) with
  | error cause => rw [laid] at done; cases done
  | ok new =>
    rw [laid] at done
    exact ⟨new, rfl, (Except.ok.inj done).symm⟩

/-- What is written under the name itself is held. -/
theorem holds_of_write {nested written : Fields} {name : String} {value : Json}
    (done : write nested ([name], value) = .ok written) : Holds name value written := by
  obtain ⟨new, laid, rfl⟩ := write_singleton_eq_ok done
  exact ⟨new, by rw [Fields.get?_put, if_pos rfl], lay_eq_ok laid⟩

/-- Nothing that is written elsewhere changes what is held. -/
theorem Holds.write {nested written : Fields} {name : String} {last value : Json}
    {place : List String} (holds : Holds name last nested) (elsewhere : place ≠ [name])
    (done : write nested (place, value) = .ok written) : Holds name last written := by
  obtain ⟨now, found, same, mapping⟩ := holds
  match place with
  | [] =>
    obtain rfl : nested = written := Except.ok.inj done
    exact ⟨now, found, same, mapping⟩
  | [part] =>
    obtain ⟨new, -, rfl⟩ := write_singleton_eq_ok done
    have other : part ≠ name := fun here => elsewhere (by rw [here])
    exact ⟨now, by rw [Fields.get?_put, if_neg other, found], same, mapping⟩
  | part :: next :: rest =>
    obtain ⟨inner, inner', here, -, rfl⟩ := update_cons_eq_ok done
    by_cases own : part = name
    · -- only a mapping can be written into, and it stays one
      subst own
      rw [found] at here
      obtain rfl : now = .object inner := by
        rcases here with here | ⟨none, -⟩
        · exact Option.some.inj here
        · cases none
      refine ⟨.object inner', by rw [Fields.get?_put, if_pos rfl], ?_, fun _ => rfl⟩
      intro isPlain
      rw [← same isPlain] at isPlain
      cases isPlain
    · exact ⟨now, by rw [Fields.get?_put, if_neg own, found], same, mapping⟩

theorem Holds.writeAll {nested final : Fields} {name : String} {last : Json}
    {given : List (List String × Json)} (holds : Holds name last nested)
    (done : writeAll nested given = .ok final) :
    Holds name ((lastGiven given [name]).getD last) final := by
  induction given generalizing nested last with
  | nil =>
    obtain rfl : nested = final := Except.ok.inj done
    exact holds
  | cons first rest ih =>
    obtain ⟨place, value⟩ := first
    rw [writeAll_cons] at done
    cases one : Settings.write nested (place, value) with
    | error cause => rw [one] at done; cases done
    | ok written =>
      rw [one] at done
      rw [lastGiven_cons]
      by_cases here : place = [name]
      · have later := ih (holds_of_write (here ▸ one)) done
        cases found : lastGiven rest [name] <;> simpa [found, here] using later
      · have later := ih (holds.write here one) done
        cases found : lastGiven rest [name] <;> simpa [found, here] using later

/-! ## The delay -/

/-- The settings that stand behind a name. -/
def behind (name : String) (settings : Fields) : Fields :=
  (settings.dropWhile (·.1 != name)).tail

theorem put_eq_append (settings : Fields) (name : String) (value : Json) :
    settings.put name value =
      settings.takeWhile (·.1 != name) ++ (name, value) :: behind name settings := by
  induction settings with
  | nil => rfl
  | cons entry rest ih =>
    obtain ⟨key, old⟩ := entry
    rw [Fields.put, behind, List.takeWhile_cons, List.dropWhile_cons]
    by_cases here : key = name
    · simp [here]
    · simp [here, ih, behind]

/-- The delay that settings give last behind its full name, by whatever name. -/
def givenLater? (settings : Fields) : Option Json :=
  lastGiven ((behind delayKey settings).flatMap (writes Check.settingKeys)) ["updateDelay"]

theorem writes_delayKey (value : Json) :
    writes Check.settingKeys (delayKey, value) = [(["updateDelay"], value)] := by
  have names : place? Check.settingKeys delayKey = some ["updateDelay"] := by decide +kernel
  rw [writes, names]

theorem holds_delay {settings nested : Fields} {delay : String}
    (nests : nest Check.settingKeys (withDelay settings (some delay)) = .ok nested) :
    Holds "updateDelay" ((givenLater? settings).getD (.text delay)) nested := by
  rw [withDelay, put_eq_append, nest_eq_writeAll, List.flatMap_append, List.flatMap_cons,
    writes_delayKey, writeAll_append] at nests
  cases early : writeAll []
      ((settings.takeWhile (·.1 != delayKey)).flatMap (writes Check.settingKeys)) with
  | error cause => rw [early] at nests; cases nests
  | ok before =>
    rw [early] at nests
    dsimp only at nests
    rw [List.singleton_append, writeAll_cons] at nests
    cases own : write before (["updateDelay"], .text delay) with
    | error cause => rw [own] at nests; cases nests
    | ok written =>
      rw [own] at nests
      exact (holds_of_write own).writeAll nests

/-- What is asked of a check about the delay: that of a configuration is the number read from the
value under its name. A mapping is no number, and a text is read as the number that it denotes. -/
structure ReadsDelay (check : Validator) (read : Json → Checked Nat) : Prop where
  own : ∀ {nested value configuration}, Fields.get? nested "updateDelay" = some value →
    check nested = .ok configuration → read value = .ok configuration.updateDelay
  mapping : ∀ {value n}, isMapping value = true → read value ≠ .ok n
  text : ∀ {delay n}, read (.text delay) = .ok n → n = Check.decimal delay.toList

theorem natural_of_isMapping {value : Json} {n : Nat} (isObject : isMapping value = true) :
    Check.natural value ≠ .ok n := by
  cases value with
  | object fields => simp [Check.natural, Check.integer, Checked.refuse]
  | null | bool | int | float | text | list => cases isObject

/-- The delay of a checked configuration is the number under its name. -/
theorem natural_of_configuration {nested : Fields} {configuration : Configuration} {value : Json}
    (found : nested.get? "updateDelay" = some value)
    (checked : Check.configuration nested = .ok configuration) :
    Check.natural value = .ok configuration.updateDelay := by
  unfold Check.configuration at checked
  dsimp only at checked
  split at checked
  · next shown delay light dark _ read _ _ _ =>
    obtain rfl := Except.ok.inj checked
    rw [Check.field, Check.given?, found] at read
    dsimp only at read
    cases natural : Check.natural value with
    | error faults => rw [natural] at read; cases read
    | ok n =>
      rw [natural] at read
      exact congrArg _ (Except.ok.inj read)
  · cases checked

theorem readsDelay_configuration : ReadsDelay Check.configuration Check.natural :=
  ⟨natural_of_configuration, natural_of_isMapping, Check.natural_text⟩

theorem read_delay {check : Validator} {read : Json → Checked Nat} (reads : ReadsDelay check read)
    {settings : Fields} {delay : String} {configuration : Configuration}
    (configured : configureBy check (withDelay settings (some delay)) = .ok configuration) :
    read ((givenLater? settings).getD (.text delay)) = .ok configuration.updateDelay := by
  unfold configureBy at configured
  split at configured
  · cases configured
  · next nested nests =>
    split at configured
    · next checked =>
      obtain rfl := Except.ok.inj configured
      obtain ⟨value, found, same, mapping⟩ := holds_delay nests
      have number := reads.own found checked
      cases kind : isMapping ((givenLater? settings).getD (.text delay)) with
      | false => rwa [same kind] at number
      | true => exact absurd number (reads.mapping (mapping kind))
    · cases configured

theorem givenLater?_of_absent {settings : Fields} (absent : delayKey ∉ settings.names) :
    givenLater? settings = none := by
  have all : settings.dropWhile (·.1 != delayKey) = [] := by
    refine List.dropWhile_eq_nil_iff.mpr fun entry member => ?_
    have other : entry.1 ≠ delayKey := by
      intro same
      exact absent (same ▸ List.mem_map_of_mem member)
    simpa using other
  rw [givenLater?, behind, all]
  rfl

/-- The delay of a loaded configuration is the one of the environment, unless the file gives a delay
again behind the full name; then it is the last one of these. -/
theorem environment_delay_counts_unless_given_later {check : Validator}
    {read : Json → Checked Nat} (reads : ReadsDelay check read) {path delay : String}
    {content : Except ReadError Text.Bytes} {settings : Fields} {configuration : Configuration}
    (holds : ofFile path content = .ok settings)
    (loaded : loadBy check (some (path, content)) (some delay) = .ok configuration) :
    (givenLater? settings = none → configuration.updateDelay = Check.decimal delay.toList) ∧
      (∀ value, givenLater? settings = some value →
        read value = .ok configuration.updateDelay) ∧
      (delayKey ∉ settings.names → givenLater? settings = none) := by
  have configured : configureBy check (withDelay settings (some delay)) = .ok configuration := by
    unfold loadBy at loaded
    simp only [holds] at loaded
    split at loaded
    · next done => rw [done, Except.ok.inj loaded]
    · cases loaded
  have number := read_delay reads configured
  refine ⟨?_, ?_, givenLater?_of_absent⟩
  · intro none
    rw [none] at number
    exact reads.text number
  · intro value later
    rw [later] at number
    exact number

/-- The delay stands before its full name and under it, and something else behind it. -/
def earlyDelays : String :=
  "\x7b\"updateDelay\": 5, \"inlineTypes.updateDelay\": \"soon\", \"inlineTypes\": 7\x7d"

theorem ofFile_earlyDelays :
    ofFile "settings.json" (.ok (encode earlyDelays)) =
      .ok [("updateDelay", .int 5), ("inlineTypes.updateDelay", .text "soon"),
        ("inlineTypes", .int 7)] := by
  have parsed : Json.parse earlyDelays.toList =
      .ok (.object [("updateDelay", .int 5), ("inlineTypes.updateDelay", .text "soon"),
        ("inlineTypes", .int 7)]) := by
    decide +kernel
  simp only [ofFile, decode?_encode, parsed]

/-- Blanks, a sign, a zero in front, an underscore and empty places make no difference. -/
theorem environment_delay_counts :
    ∃ configuration,
      load (some ("settings.json", .ok (encode earlyDelays))) (some " +0_250.00 ") =
        .ok configuration ∧ configuration.updateDelay = 250 := by
  have nests : nest Check.settingKeys (withDelay
      [("updateDelay", .int 5), ("inlineTypes.updateDelay", .text "soon"),
        ("inlineTypes", .int 7)] (some " +0_250.00 ")) =
        .ok [("updateDelay", .text " +0_250.00 ")] := by
    decide +kernel
  obtain ⟨configuration, loaded⟩ : ∃ configuration,
      load (some ("settings.json", .ok (encode earlyDelays))) (some " +0_250.00 ") =
        .ok configuration := by
    simp only [load, loadBy, ofFile_earlyDelays, configureBy, nests]
    exact ⟨_, rfl⟩
  have none : givenLater? [("updateDelay", .int 5), ("inlineTypes.updateDelay", .text "soon"),
      ("inlineTypes", .int 7)] = none := by
    decide +kernel
  have counts :=
    (environment_delay_counts_unless_given_later readsDelay_configuration ofFile_earlyDelays
      loaded).1 none
  exact ⟨configuration, loaded, counts.trans (by decide)⟩

/-- The delay stands under its full name, and again behind it. -/
def lateDelay : String := "\x7b\"inlineTypes.updateDelay\": 120, \"updateDelay\": 7\x7d"

/-- A delay behind the full name counts although the environment gives another one. -/
theorem later_delay_hides_environment :
    ¬ ∀ path delay content settings configuration, ofFile path content = .ok settings →
      load (some (path, content)) (some delay) = .ok configuration →
        configuration.updateDelay = Check.decimal delay.toList := by
  intro counts
  have holds : ofFile "settings.json" (.ok (encode lateDelay)) =
      .ok [("inlineTypes.updateDelay", .int 120), ("updateDelay", .int 7)] := by
    have parsed : Json.parse lateDelay.toList =
        .ok (.object [("inlineTypes.updateDelay", .int 120), ("updateDelay", .int 7)]) := by
      decide +kernel
    simp only [ofFile, decode?_encode, parsed]
  have nests : nest Check.settingKeys
      (withDelay [("inlineTypes.updateDelay", .int 120), ("updateDelay", .int 7)] (some "250")) =
        .ok [("updateDelay", .int 7)] := by
    decide +kernel
  have checked : Check.configuration [("updateDelay", .int 7)] =
      .ok { Configuration.standard with updateDelay := 7 } := rfl
  have loaded : load (some ("settings.json", .ok (encode lateDelay))) (some "250") =
      .ok { Configuration.standard with updateDelay := 7 } := by
    simp only [load, loadBy, holds, configureBy, nests, checked]
  have seven := counts _ _ _ _ _ holds loaded
  exact absurd seven (by decide)

end Inlay.Settings
