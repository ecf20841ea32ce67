import Inlay.Proofs.Invariant

/-!
An entry that has stayed clean since a result was accepted still has the text of that result, and
the hints that were accepted last.
-/

namespace Inlay.Update

open State

/-- The entry stays in the registry, and not dirty, from a state on and through all the events. -/
def StaysClean (hasReader : Bool) (state : State) (path : String) (birth : Nat)
    (events : List Event) : Prop :=
  Always hasReader state events fun state => state.Has path birth (·.dirty = false)

/-- None of the events brings a result that counts for the path. -/
def NoneAccepted (hasReader : Bool) (state : State) (path : String) (events : List Event) : Prop :=
  Never hasReader state events fun state event =>
    ∃ entry text built, Accepts state path event entry text built

section

variable {hasReader : Bool} {state : State} {path : String} {event : Event} {events : List Event}

/-- An entry with current text that stays clean keeps its text, and its hints until a result is
accepted. -/
theorem run_settled {entry later : Entry} (valid : Valid state)
    (known : state.registry.get? path = some entry) (current : entry.needsReload = false)
    (clean : StaysClean hasReader state path entry.birth events)
    (found : (state.run hasReader events).registry.get? path = some later) :
    later.text = entry.text ∧
      (NoneAccepted hasReader state path events → later.hints = entry.hints) := by
  induction events generalizing state entry with
  | nil =>
    obtain rfl := Option.some.inj (known.symm.trans found)
    exact ⟨rfl, fun _ => rfl⟩
  | cons event events ih =>
    obtain ⟨⟨now, known', birth, tidy⟩, clean'⟩ := clean.cons
    have becomes : Becomes hasReader state path event now := step_becomes known'
    -- A notification would have left the entry dirty.
    have same : now.generation = entry.generation := by
      rcases becomes.origin with ⟨unknown, _⟩ | ⟨old, known'', _, raised | same⟩
      · simp [unknown] at known
      · simp [tidy] at raised
      · obtain rfl := Option.some.inj (known.symm.trans known'')
        exact same
    obtain ⟨text, current', hints⟩ :=
      becomes.settled known (valid.consistent path entry known) current same
    rw [← birth] at clean'
    obtain ⟨text', hints'⟩ := ih (valid_step hasReader event valid) known' current' clean' found
    refine ⟨text'.trans text, fun none => (hints' none.cons.2).trans ?_⟩
    rcases hints with kept | ⟨_, _, accepts, _⟩
    · exact kept
    · exact absurd ⟨_, _, _, accepts⟩ none.cons.1

theorem Accepts.step {entry : Entry} {text : String} {built : Built}
    (accepts : Accepts state path event entry text built) :
    (state.step hasReader event).registry.get? path = some (accept built entry) := by
  cases accepts with
  | intro job known =>
    have owned : state.entryOf? path entry.birth = some entry := entryOf?_eq_some.mpr ⟨known, rfl⟩
    simp only [State.step, job, finishBuild, owned, if_true]
    simp [State.modify, State.drop, Registry.get?_modify, known]

theorem startBuild_unchanged {id : Nat} {other : String} :
    Effect.changed path ∉ (state.startBuild id other).2 := by
  unfold startBuild
  split <;> simp

/-- Hints are announced by a result that is accepted, and by nothing else. -/
theorem accepts_of_changed (changed : Effect.changed path ∈ state.effects hasReader event) :
    ∃ entry text built, Accepts state path event entry text built := by
  cases event with
  | notice _ | forget _ | close => simp [effects] at changed
  | fire id =>
    simp only [effects] at changed
    split at changed
    · unfold State.fire at changed
      split at changed
      · simp at changed
      · split at changed
        · exact absurd changed startBuild_unchanged
        · split at changed
          · simp at changed
          · exact absurd changed startBuild_unchanged
    · simp at changed
  | read id result =>
    simp only [effects] at changed
    split at changed
    · unfold finishRead at changed
      split at changed
      · simp at changed
      · simp at changed
      · split at changed <;> exact absurd changed startBuild_unchanged
      · split at changed
        · exact absurd changed startBuild_unchanged
        · split at changed <;> simp at changed
    · simp at changed
  | build id result =>
    simp only [effects] at changed
    split at changed
    · next other birth generation text found =>
      obtain rfl := job?_id found
      simp only [finishBuild] at changed
      split at changed
      · simp at changed
      · split at changed <;> simp at changed
      · next built entry owned =>
        split at changed
        · next current =>
          split at changed
          · obtain ⟨rfl⟩ := List.mem_singleton.mp changed
            obtain ⟨known, rfl⟩ := entryOf?_eq_some.mp owned
            subst current
            exact ⟨entry, text, built, .intro found known⟩
          · simp at changed
        · split at changed <;> simp at changed
    · simp at changed

/-- The end of a build changes the entry of a path if its result is accepted. If it failed, and
nothing was notified since it began, the entry is no longer dirty; nothing else changes. -/
theorem accepts_of_build {id : Nat} {result : Option Built}
    (changed : (state.step hasReader (.build id result)).registry.get? path ≠
      state.registry.get? path) :
    (∃ entry text built, Accepts state path (.build id result) entry text built) ∨
      result = none ∧ ∃ entry, state.registry.get? path = some entry ∧
        (state.step hasReader (.build id result)).registry.get? path =
          some { entry with dirty := false } := by
  have elsewhere : ∀ {other : String} {change : Entry → Entry},
      (∀ entry, (change entry).path = entry.path) →
      (state.registry.modify other change).get? path ≠ state.registry.get? path →
        other = path := by
    intro other change keeps changed
    rw [Registry.get?_modify _ _ _ keeps] at changed
    by_contra different
    exact changed (if_neg (Ne.symm different))
  have step := step_spec hasReader state (.build id result)
  generalize state.step hasReader (.build id result) = next at step changed ⊢
  cases step with
  | ignored _ | dropped _ _ | building _ _ _ => exact absurd rfl changed
  | rearmed _ _ _ _ _ =>
    rw [schedule_registry] at changed
    exact absurd rfl changed
  | loaded _ loads => cases loads
  | failed wakes known =>
    obtain rfl := elsewhere (by intro; rfl) changed
    refine .inr ⟨rfl, _, known, ?_⟩
    simp [State.modify, State.drop, Registry.get?_modify, known]
  | accepted wakes accepts =>
    obtain rfl := elsewhere (by simp) changed
    exact .inl ⟨_, _, _, accepts⟩

end

/-- What a build brings changes the hints of a path, or anything else of its entry, only if it is
accepted, and nothing but that announces new hints; a build that failed can only make the entry
clean. A result that is accepted was built from the text that the entry holds, and leaves the entry
clean. As long as it stays clean it holds this text, and the hints are those of the last result
that was accepted; those of a text with errors count only if there were no others. -/
theorem clean_text_was_built (hasReader : Bool) (past : List Event) (event : Event)
    (path : String) :
    let before := after hasReader past
    let now := after hasReader (past ++ [event])
    (Effect.changed path ∈ before.effects hasReader event →
      ∃ entry text built, Accepts before path event entry text built) ∧
    (∀ id result, event = .build id result →
      now.registry.get? path ≠ before.registry.get? path →
      (∃ entry text built, Accepts before path event entry text built) ∨
        result = none ∧ ∃ entry, before.registry.get? path = some entry ∧
          now.registry.get? path = some { entry with dirty := false }) ∧
    ∀ entry text built, Accepts before path event entry text built →
      text = entry.text ∧ StaysClean hasReader now path entry.birth [] ∧
      ∀ future later, StaysClean hasReader now path entry.birth future →
        (after hasReader (past ++ event :: future)).registry.get? path = some later →
          later.text = text ∧
            (NoneAccepted hasReader now path future →
              (built.hasErrors = false → later.hints = built.hints) ∧
              (built.hasErrors = true →
                later.hints = if entry.hints = [] then built.hints else entry.hints)) := by
  intro before now
  have valid : Valid before := valid_after hasReader past
  have here : now = before.step hasReader event := after_concat hasReader past event
  refine ⟨accepts_of_changed, ?_, ?_⟩
  · rintro id result rfl changed
    rw [here] at changed ⊢
    exact accepts_of_build changed
  intro entry text built accepted
  have built_now : entry.needsReload = false ∧ entry.text = text := by
    obtain ⟨job, known⟩ := accepted
    exact valid.builds _ (List.mem_of_find?_eq_some job) _ _ text rfl entry known rfl rfl
  obtain ⟨current, rfl⟩ := built_now
  have installed : now.registry.get? path = some (accept built entry) := by
    rw [here]
    exact accepted.step
  refine ⟨rfl, ?_, ?_⟩
  · intro recent isPrefix
    obtain rfl := List.prefix_nil.mp isPrefix
    exact ⟨_, installed, by rw [accept_eq], by rw [accept_eq]⟩
  · intro future later clean found
    rw [List.append_cons, after_append] at found
    have current' : (accept built entry).needsReload = false := by rw [accept_eq]; exact current
    have birth : (accept built entry).birth = entry.birth := by rw [accept_eq]
    obtain ⟨kept, hints⟩ := run_settled (valid_after hasReader (past ++ [event])) installed current'
      (birth ▸ clean) found
    refine ⟨kept.trans (by rw [accept_eq]), fun none => ?_⟩
    rw [hints none, accept_eq]
    constructor
    · intro sound
      simp [sound]
    · intro broken
      cases entry.hints <;> simp [broken]

/-- A file is edited while it is read, and two jobs then build its text. The first result is
accepted and the second job fails. -/
theorem edit_during_read_was_built :
    let hint : Hint := ⟨"", ": T", ⟨0, 1⟩, ⟨0, 2⟩, false, by decide⟩
    let past : List Event := [.notice (.changed "a.ts"), .fire 0,
      .notice (.edited "a.ts" [.insert ⟨0, 0⟩ "b"]), .read 0 (.ok "a"), .fire 1]
    let entry : Entry := ⟨"a.ts", 0, "ba", [], 2, true, true, false, false, []⟩
    let later : Entry := ⟨"a.ts", 0, "ba", [hint], 2, false, true, false, false, []⟩
    Accepts (after true past) "a.ts" (.build 0 (some ⟨[hint], false⟩)) entry "ba" ⟨[hint], false⟩ ∧
      (after true (past ++ [.build 0 (some ⟨[hint], false⟩), .build 1 none])).registry.get? "a.ts" =
        some later ∧
      "ba" = entry.text ∧ later.text = "ba" ∧ later.hints = [hint] := by
  intro hint past entry later
  have accepted : Accepts (after true past) "a.ts" (.build 0 (some ⟨[hint], false⟩)) entry "ba"
      ⟨[hint], false⟩ := .intro (by decide) (by decide)
  have found : (after true (past ++ [.build 0 (some ⟨[hint], false⟩), .build 1 none])).registry.get?
      "a.ts" = some later := by decide
  obtain ⟨same, _, stays⟩ :=
    (clean_text_was_built true past (.build 0 (some ⟨[hint], false⟩)) "a.ts").2.2 _ _ _ accepted
  have clean : StaysClean true (after true (past ++ [.build 0 (some ⟨[hint], false⟩)])) "a.ts" 0
      [.build 1 none] := by
    intro recent isPrefix
    rcases List.prefix_cons_iff.mp isPrefix with rfl | ⟨rest, rfl, isPrefix'⟩
    · exact ⟨later, by decide, rfl, rfl⟩
    · obtain rfl := List.prefix_nil.mp isPrefix'
      exact ⟨later, by decide, rfl, rfl⟩
  have alone : NoneAccepted true (after true (past ++ [.build 0 (some ⟨[hint], false⟩)])) "a.ts"
      [.build 1 none] := by
    rintro (_ | ⟨first, rest⟩) event isPrefix ⟨_, _, _, accepts⟩
    · obtain rfl : event = .build 1 none := by simpa using isPrefix
      cases accepts
    · simpa using isPrefix.length_le
  obtain ⟨text, hints⟩ := stays [.build 1 none] later clean found
  exact ⟨accepted, found, same, text, (hints alone).1 rfl⟩

end Inlay.Update
