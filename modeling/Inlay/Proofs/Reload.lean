import Inlay.Proofs.Attended
import Inlay.Proofs.EditLog

/-!
How recent the text is that a reload installs.

A file that changed is loaded before its jobs come to rest, from the first read that comes back.
That read may have been under way when the file changed. Then its text is taken for the new one, and
the job that the change armed finds nothing left to read.
-/

namespace Inlay

/-- Edits of an entry that waits for its reader leave it waiting. -/
theorem Entry.change_needsReload {entry : Entry} (unopened : entry.opened = false)
    (waiting : entry.isWaiting = true) (edits : List Edit) :
    (entry.change edits).needsReload = true := by
  rw [change, if_pos waiting]
  simp [bump, unopened]

namespace Update

open State

/-- What a run does besides changing the state. -/
def State.trace (hasReader : Bool) (state : State) : List Event → List Effect
  | [] => []
  | event :: events =>
    state.effects hasReader event ++ (state.step hasReader event).trace hasReader events

section

variable {hasReader : Bool} {state next : State} {path : String} {event : Event} {entry : Entry}

/-! ## The marks of an entry -/

/-- A file that is to be read is dirty. -/
def Overdue (state : State) : Prop :=
  ∀ path entry, state.registry.get? path = some entry → entry.needsReload = true →
    entry.dirty = true

/-- A file whose text is built as it is now does not have to be read. -/
theorem current_of_building {id : Nat} {text : String} (valid : Valid state)
    (job : state.job? id = some ⟨id, path, .building entry.birth entry.generation text⟩)
    (known : state.registry.get? path = some entry) : entry.needsReload = false :=
  (valid.builds _ (List.mem_of_find?_eq_some job) _ _ text rfl entry known rfl rfl).1

theorem overdue_of_step (step : Step hasReader state event next) (valid : Valid state)
    (overdue : Overdue state) : Overdue next := by
  intro path entry found waits
  have becomes := becomes_of_step step found
  cases becomes with
  | kept known _ => exact overdue path entry known waits
  | opened _ => rfl
  | edited _ => exact Entry.change_dirty _ _
  | marked _ _ => rfl
  | loaded _ =>
    rw [Entry.load_eq] at waits
    simp at waits
  | unread _ _ => simp at waits
  | accepted accepts =>
    obtain ⟨job, known⟩ := accepts
    rw [accept_eq] at waits
    simp [current_of_building valid job known] at waits
  | @failed _ old known =>
    cases step with
    | ignored _ | dropped _ _ | building _ _ _ => exact overdue path _ found waits
    | loaded _ loads => cases loads
    | accepted _ accepts => cases accepts
    | failed wakes known' =>
      simp only [State.modify] at found
      rw [Registry.get?_modify _ _ _ (by intro; rfl)] at found
      split at found
      -- The text that could not be built was current.
      · next same =>
        subst same
        obtain rfl := Option.some.inj (known.symm.trans known')
        simp [current_of_building valid wakes.job? known] at waits
      · exact overdue path _ found waits

theorem overdue_after (hasReader : Bool) (events : List Event) :
    Overdue (after hasReader events) := by
  induction events using List.reverseRecOn with
  | nil =>
    intro path entry found
    simp [get?_after_nil] at found
  | append_singleton events event ih =>
    rw [after_concat]
    exact overdue_of_step (step_spec hasReader _ event) (valid_after hasReader events) ih

/-- An event leaves the file to its reader: no editor opens it and no read fails. -/
structure Reads (path : String) (event : Event) : Prop where
  unopened : ∀ text, event ≠ .notice (.opened path text)
  succeeds : ∀ id failure, event ≠ .read id (.error failure)

/-- The entry of a path whose text comes from a reader alone. -/
def Unopened (state : State) (path : String) : Prop :=
  ∀ entry, state.registry.get? path = some entry →
    entry.opened = false ∧ (entry.loaded = false → entry.needsReload = true)

theorem Unopened.entryFor (unopened : Unopened state path) :
    (state.registry.entryFor path).opened = false := by
  rcases state.registry.entryFor_cases path with ⟨_, eq⟩ | ⟨old, known, eq⟩
  · rw [eq]
    rfl
  · rw [eq]
    exact (unopened old known).1

theorem Unopened.step (unopened : Unopened state path) (reads : Reads path event) :
    Unopened (state.step hasReader event) path := by
  intro entry found
  have entryFor := unopened.entryFor
  cases step_becomes found with
  | kept known _ => exact unopened entry known
  | opened _ => exact absurd rfl (reads.unopened _)
  | edited _ =>
    refine ⟨by simpa using entryFor, fun unloaded => ?_⟩
    by_cases waiting : (state.registry.entryFor path).isWaiting = true
    · exact Entry.change_needsReload entryFor waiting _
    · have current : (state.registry.entryFor path).loaded = true ∧
          (state.registry.entryFor path).needsReload = false := by
        simpa [Entry.isWaiting] using waiting
      rw [Entry.change, if_neg waiting] at unloaded
      simp [Entry.bump, current.1] at unloaded
  | marked _ _ => exact ⟨entryFor, fun _ => by simp [Entry.markReload, Entry.bump, entryFor]⟩
  | loaded loads =>
    rw [Entry.load_eq]
    exact ⟨(unopened _ loads.known).1, by simp⟩
  | unread _ _ => exact absurd rfl (reads.succeeds _ _)
  | @failed _ old known => exact unopened old known
  | @accepted _ old _ _ accepts =>
    rw [accept_eq]
    exact unopened old accepts.known

/-- If the path is known, its file is still to be read. -/
def Due (state : State) (path : String) : Prop :=
  ∀ entry, state.registry.get? path = some entry → entry.needsReload = true

theorem Due.entryFor_isWaiting (due : Due state path) :
    (state.registry.entryFor path).isWaiting = true := by
  rcases state.registry.entryFor_cases path with ⟨_, eq⟩ | ⟨old, known, eq⟩
  · rw [eq]
    rfl
  · rw [eq]
    simp [Entry.isWaiting, due old known]

theorem Due.step (due : Due state path) (unopened : Unopened state path) (reads : Reads path event)
    (unloaded : ¬ ∃ old base, Loads hasReader state path event old base) :
    Due (state.step hasReader event) path := by
  intro entry found
  have entryFor := unopened.entryFor
  cases step_becomes found with
  | kept known _ => exact due entry known
  | opened _ => exact absurd rfl (reads.unopened _)
  | edited _ => exact Entry.change_needsReload entryFor due.entryFor_isWaiting _
  | marked _ _ => simp [Entry.markReload, Entry.bump, entryFor]
  | loaded loads => exact absurd ⟨_, _, loads⟩ unloaded
  | unread _ _ => exact absurd rfl (reads.succeeds _ _)
  | @failed _ old known => exact due old known
  | @accepted _ old _ _ accepts =>
    rw [accept_eq]
    exact due old accepts.known

theorem due_of_changed (valid : Valid state) (unopened : Unopened state path) :
    Due (state.step hasReader (.notice (.changed path))) path := by
  intro entry found
  cases step_becomes found with
  | kept known silent => simpa using silent (valid.supported path entry known) _ rfl rfl
  | marked _ _ => simp [Entry.markReload, Entry.bump, unopened.entryFor]
  | loaded loads => cases loads
  | accepted accepts => cases accepts

/-! ## Along a run -/

theorem unopened_after {events : List Event} (reads : ∀ event ∈ events, Reads path event) :
    Unopened (after hasReader events) path := by
  induction events using List.reverseRecOn with
  | nil =>
    intro entry found
    simp [get?_after_nil] at found
  | append_singleton events event ih =>
    rw [after_concat]
    have before := ih fun event member => reads event (List.mem_append_left _ member)
    exact before.step (reads event (by simp))

/-- A file that is to be read stays so until its text is loaded. -/
theorem due_run {events : List Event} (due : Due state path) (unopened : Unopened state path)
    (reads : ∀ event ∈ events, Reads path event)
    (never : Never hasReader state events fun state event =>
      ∃ old base, Loads hasReader state path event old base) :
    Due (state.run hasReader events) path := by
  induction events generalizing state with
  | nil => exact due
  | cons event events ih =>
    have first := reads event List.mem_cons_self
    obtain ⟨unloaded, never'⟩ := never.cons
    exact ih (due.step unopened first unloaded) (unopened.step first)
      (fun later member => reads later (List.mem_cons_of_mem event member)) never'

/-! ## Reads -/

theorem reading_of_step {id birth generation : Nat} (numbered : Numbered state)
    (reading : (state.step hasReader event).job? id =
      some ⟨id, path, .reading birth generation⟩) :
    state.job? id = some ⟨id, path, .reading birth generation⟩ ∨
      event = .fire id ∧ state.effects hasReader (.fire id) = [.read path] := by
  have member := List.mem_of_find?_eq_some reading
  have spec := step_spec hasReader state event
  generalize state.step hasReader event = next at spec member
  cases arises_of_step spec numbered member with
  | kept old => exact .inl (job?_of_mem numbered.unique old)
  | reads reader wakes known waits =>
    refine .inr ⟨rfl, ?_⟩
    simp [effects, wakes.job?, State.fire, known, waits, reader]

/-- A read was under way at some point, or began after it. -/
theorem reading_since {past recent : List Event} {id birth generation : Nat}
    (reading : (after hasReader (past ++ recent)).job? id =
      some ⟨id, path, .reading birth generation⟩) :
    (∃ early late, recent = early ++ .fire id :: late ∧
        (after hasReader (past ++ early)).effects hasReader (.fire id) = [.read path]) ∨
      (after hasReader past).job? id = some ⟨id, path, .reading birth generation⟩ := by
  induction recent using List.reverseRecOn with
  | nil => exact .inr (by simpa using reading)
  | append_singleton recent event ih =>
    rw [← List.append_assoc, after_concat] at reading
    rcases reading_of_step (valid_after hasReader _).numbered reading with before | ⟨rfl, began⟩
    · rcases ih before with ⟨early, late, rfl, began⟩ | already
      · exact .inl ⟨early, late ++ [event], by simp, began⟩
      · exact .inr already
    · exact .inl ⟨recent, [], rfl, began⟩

/-- When the jobs of a path have come to rest, its file has been read. -/
theorem current_at_rest {events : List Event} (reads : ∀ event ∈ events, Reads path event)
    (unclosing : .close ∉ events)
    (found : (after hasReader events).registry.get? path = some entry)
    (unarmed : (after hasReader events).isArmed path = false)
    (idle : (after hasReader events).rebuilding path = 0) :
    entry.needsReload = false ∧ entry.opened = false ∧ entry.loaded = true := by
  have current : entry.needsReload = false := by
    by_contra waits
    have dirty := overdue_after hasReader events path entry found (by simpa using waits)
    rcases tended_or_stranded path unclosing with tended | stranded
    · rcases (tended entry found dirty).armed_or_rebuilding with armed | rebuilding
      · simp [unarmed] at armed
      · omega
    · obtain ⟨id, member⟩ := stranded.broken
      exact (reads _ member).succeeds id .broken rfl
  obtain ⟨unopened, loaded⟩ := unopened_after reads entry found
  refine ⟨current, unopened, ?_⟩
  by_contra unloaded
  simp [current] at loaded
  exact unloaded loaded

/-- Until it is loaded, a file that changed is to be read. -/
theorem due_since_change {past recent : List Event}
    (reads : ∀ event ∈ past ++ .notice (.changed path) :: recent, Reads path event)
    (never : Never hasReader (after hasReader (past ++ [.notice (.changed path)])) recent
      fun state event => ∃ old base, Loads hasReader state path event old base) :
    Due (after hasReader (past ++ .notice (.changed path) :: recent)) path := by
  rw [List.append_cons] at reads ⊢
  rw [after_append]
  have before : ∀ event ∈ past ++ [.notice (.changed path)], Reads path event :=
    fun event member => reads event (List.mem_append_left _ member)
  refine due_run ?_ (unopened_after before)
    (fun event member => reads event (List.mem_append_right _ member)) never
  rw [after_concat]
  exact due_of_changed (valid_after hasReader past)
    (unopened_after fun event member => before event (List.mem_append_left _ member))

/-- The last load of a file that has come to rest came after every change of it, and the file holds
what was loaded with the edits that were queued then and those that came since. -/
theorem loaded_after_change {past recent : List Event}
    (reads : ∀ event ∈ past ++ .notice (.changed path) :: recent, Reads path event)
    (unclosing : .close ∉ past ++ .notice (.changed path) :: recent)
    (found : (after hasReader (past ++ .notice (.changed path) :: recent)).registry.get? path =
      some entry)
    (unarmed : (after hasReader (past ++ .notice (.changed path) :: recent)).isArmed path = false)
    (idle : (after hasReader (past ++ .notice (.changed path) :: recent)).rebuilding path = 0) :
    ∃ before event rest old base, recent = before ++ event :: rest ∧
      Loads hasReader (after hasReader (past ++ .notice (.changed path) :: before)) path event old
        base ∧
      old.birth = entry.birth ∧
      Never hasReader (after hasReader (past ++ .notice (.changed path) :: before ++ [event])) rest
        (fun state event => ∃ old base, Loads hasReader state path event old base) ∧
      entry.text = Edit.applyAll base (old.pending ++ directEdits hasReader path
        (after hasReader (past ++ .notice (.changed path) :: before ++ [event])) rest) := by
  obtain ⟨current, unopened, loaded⟩ := current_at_rest reads unclosing found unarmed idle
  obtain ⟨start, event, rest, old, base, split, loads, birth, never, text⟩ :=
    text_since_load found unopened loaded
  rcases List.append_eq_append_iff.mp split with ⟨between, rfl, later⟩ | ⟨between, rfl, later⟩
  · cases between with
    | nil =>
      obtain ⟨rfl, _⟩ := List.cons.inj later
      cases loads
    | cons first before =>
      obtain ⟨rfl, rfl⟩ := List.cons.inj later
      exact ⟨before, event, rest, old, base, rfl, loads, birth, never, text⟩
  · cases between with
    | nil =>
      obtain ⟨rfl, _⟩ := List.cons.inj later
      cases loads
    -- Had the last load come before the change, the file would still have to be read.
    | cons first middle =>
      rw [List.cons_append] at later
      obtain ⟨rfl, rfl⟩ := List.cons.inj later
      have unloaded : Never hasReader
          (after hasReader (start ++ event :: middle ++ [.notice (.changed path)])) recent
          fun state event => ∃ old base, Loads hasReader state path event old base := by
        rw [List.append_cons middle] at never
        have dropped := never.drop
        rw [← after_append] at dropped
        simpa using dropped
      have waits := due_since_change reads unloaded entry found
      simp [current] at waits

end

/-- If no read fails and no editor opens the file, a file that has changed and come to rest holds
the text of a read that came back after the change, with the edits that waited for it and those that
came since, and nothing was loaded since. The read began after the change, or was under way when the
file changed. -/
theorem installed_read_outlasts_change {past recent : List Event} {path : String} {entry : Entry}
    (succeeds : ∀ id failure,
      .read id (.error failure) ∉ past ++ .notice (.changed path) :: recent)
    (unopened : ∀ text, .notice (.opened path text) ∉ past ++ .notice (.changed path) :: recent)
    (unclosing : .close ∉ past ++ .notice (.changed path) :: recent)
    (found : (after true (past ++ .notice (.changed path) :: recent)).registry.get? path =
      some entry)
    (unarmed : (after true (past ++ .notice (.changed path) :: recent)).isArmed path = false)
    (idle : (after true (past ++ .notice (.changed path) :: recent)).rebuilding path = 0) :
    ∃ before id text rest old, recent = before ++ .read id (.ok text) :: rest ∧
      Loads true (after true (past ++ .notice (.changed path) :: before)) path
        (.read id (.ok text)) old text ∧
      old.birth = entry.birth ∧
      Never true
        (after true (past ++ .notice (.changed path) :: before ++ [.read id (.ok text)])) rest
        (fun state event => ∃ old base, Loads true state path event old base) ∧
      entry.text = Edit.applyAll text (old.pending ++ directEdits true path
        (after true (past ++ .notice (.changed path) :: before ++ [.read id (.ok text)])) rest) ∧
      ((∃ early late, before = early ++ .fire id :: late ∧
          (after true (past ++ .notice (.changed path) :: early)).effects true (.fire id) =
            [.read path]) ∨
        ∃ birth generation,
          (after true past).job? id = some ⟨id, path, .reading birth generation⟩) := by
  have reads : ∀ event ∈ past ++ .notice (.changed path) :: recent, Reads path event := by
    intro event member
    constructor
    · rintro text rfl
      exact unopened text member
    · rintro id failure rfl
      exact succeeds id failure member
  obtain ⟨before, event, rest, old, base, rfl, loads, birth, never, holds⟩ :=
    loaded_after_change reads unclosing found unarmed idle
  cases loads with
  | unread alone _ _ _ => simp at alone
  | @unreadable id _ _ _ _ _ _ => exact absurd (by simp) (succeeds id .unreadable)
  | @read id _ _ _ job known waits =>
    refine ⟨before, id, base, rest, old, rfl, .read job known waits, birth, never, holds, ?_⟩
    rcases reading_since job with ⟨early, late, between, began⟩ | already
    · cases early with
      | nil => simp at between
      | cons first early =>
        obtain ⟨rfl, rfl⟩ := List.cons.inj between
        exact .inl ⟨early, late, rfl, began⟩
    · exact .inr ⟨_, _, already⟩

/-- A file that was loaded changes again and is read again. -/
theorem second_read_follows_change :
    let past : List Event := [.notice (.changed "a.ts"), .fire 0, .read 0 (.ok "a"),
      .build 0 (some ⟨[], false⟩)]
    let recent : List Event := [.fire 1, .read 1 (.ok "b"), .build 1 (some ⟨[], false⟩)]
    let entry : Entry := ⟨"a.ts", 0, "b", [], 2, false, true, false, false, []⟩
    let events : List Event := past ++ .notice (.changed "a.ts") :: recent
    (after true events).registry.get? "a.ts" = some entry ∧
      (after true events).isArmed "a.ts" = false ∧ (after true events).rebuilding "a.ts" = 0 ∧
      (after true past).jobs = [] ∧
      ∃ before id text rest early late, recent = before ++ .read id (.ok text) :: rest ∧
        before = early ++ .fire id :: late ∧
        (after true (past ++ .notice (.changed "a.ts") :: early)).effects true (.fire id) =
          [.read "a.ts"] := by
  intro past recent entry events
  have found : (after true events).registry.get? "a.ts" = some entry := by decide
  have unarmed : (after true events).isArmed "a.ts" = false := by decide
  have idle : (after true events).rebuilding "a.ts" = 0 := by decide
  have still : (after true past).jobs = [] := by decide
  refine ⟨found, unarmed, idle, still, ?_⟩
  obtain ⟨before, id, text, rest, old, split, _, _, _, _, began | ⟨birth, generation, reading⟩⟩ :=
    installed_read_outlasts_change (by simp [past, recent]) (by simp [past, recent])
      (by simp [past, recent]) found unarmed idle
  · obtain ⟨early, late, between, began⟩ := began
    exact ⟨before, id, text, rest, early, late, split, between, began⟩
  · simp [job?, still] at reading

/-- A file changes while it is read. The read comes back and is installed, and the job that the
second change armed builds its text without reading the file again. -/
theorem overtaken_read_is_installed :
    let past : List Event := [.notice (.changed "a.ts"), .fire 0]
    let recent : List Event := [.read 0 (.ok "a"), .fire 1, .build 0 (some ⟨[], false⟩),
      .build 1 (some ⟨[], false⟩)]
    let events : List Event := past ++ .notice (.changed "a.ts") :: recent
    (after true past).job? 0 = some ⟨0, "a.ts", .reading 0 1⟩ ∧
      (after true events).registry.get? "a.ts" =
        some ⟨"a.ts", 0, "a", [], 2, false, true, false, false, []⟩ ∧
      (after true events).jobs = [] ∧
      .read "a.ts" ∉
        (after true (past ++ [.notice (.changed "a.ts")])).trace true recent := by
  decide

end Update

end Inlay
