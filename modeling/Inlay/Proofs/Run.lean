import Inlay.Update.State
import Inlay.Proofs.Registry

/-!
Runs of the updates, in any order of events.

An event is a notification that is handled, the end of a job's delay, of its read or of its build,
or the end of the service. Events of jobs that are not at the stage for them do nothing, so that
every list of events is a run. `Step` says once what an event can do; what runs keep is derived
from it.

There is no event for giving up to wait until all jobs are done. Who waits is taken to wait to the
end: if it were given up half-way, the jobs that are waited for would end with it.
-/

namespace Inlay.Update

inductive Event
  /-- A notification is handled. -/
  | notice (notice : Notice)
  /-- The delay of a job is over. -/
  | fire (job : Nat)
  | read (job : Nat) (result : Except ReadFailure String)
  /-- A build ends, with a result unless it failed. -/
  | build (job : Nat) (result : Option Built)
  /-- A path is taken out of the registry, and its jobs are left alone. -/
  | forget (path : String)
  | close

namespace State

/-- The state after an event. Hints are asked for of files in a known language only. -/
def step (hasReader : Bool) (state : State) : Event → State
  | .notice (.wanted path) =>
    if Language.isSupported path then state.notify (.wanted path) else state
  | .notice notice => state.notify notice
  | .fire id =>
    match state.job? id with
    | some ⟨_, path, .delayed⟩ => (state.fire hasReader id path).1
    | _ => state
  | .read id result =>
    match state.job? id with
    | some ⟨_, path, .reading birth generation⟩ =>
      (state.finishRead id path birth generation result).1
    | _ => state
  | .build id result =>
    match state.job? id with
    | some ⟨_, path, .building birth generation _⟩ =>
      (state.finishBuild id path birth generation result).1
    | _ => state
  | .forget path => { state with registry := state.registry.remove path }
  | .close => state.close

/-- What an event does besides changing the state. -/
def effects (hasReader : Bool) (state : State) : Event → List Effect
  | .fire id =>
    match state.job? id with
    | some ⟨_, path, .delayed⟩ => (state.fire hasReader id path).2
    | _ => []
  | .read id result =>
    match state.job? id with
    | some ⟨_, path, .reading birth generation⟩ =>
      (state.finishRead id path birth generation result).2
    | _ => []
  | .build id result =>
    match state.job? id with
    | some ⟨_, path, .building birth generation _⟩ =>
      (state.finishBuild id path birth generation result).2
    | _ => []
  | _ => []

def run (hasReader : Bool) (state : State) (events : List Event) : State :=
  events.foldl (step hasReader) state

/-- The state to which events lead from the start. -/
def after (hasReader : Bool) (events : List Event) : State := run hasReader .initial events

end State

open State

theorem get?_after_nil (hasReader : Bool) (path : String) :
    (after hasReader []).registry.get? path = none :=
  rfl

theorem after_append (hasReader : Bool) (past events : List Event) :
    after hasReader (past ++ events) = (after hasReader past).run hasReader events :=
  List.foldl_append

theorem after_concat (hasReader : Bool) (events : List Event) (event : Event) :
    after hasReader (events ++ [event]) = (after hasReader events).step hasReader event :=
  after_append hasReader events [event]

/-- The path has the entry of that birth, and the entry has the property. -/
def State.Has (state : State) (path : String) (birth : Nat) (property : Entry → Prop) : Prop :=
  ∃ entry, state.registry.get? path = some entry ∧ entry.birth = birth ∧ property entry

/-- A state and all those to which the events lead from it one by one. -/
def Always (hasReader : Bool) (state : State) (events : List Event) (holds : State → Prop) : Prop :=
  ∀ recent, recent <+: events → holds (state.run hasReader recent)

/-- None of the events is of that kind in the state in which it comes. -/
def Never (hasReader : Bool) (state : State) (events : List Event) (occurs : State → Event → Prop) :
    Prop :=
  ∀ recent event, recent ++ [event] <+: events → ¬ occurs (state.run hasReader recent) event

section

variable {hasReader : Bool} {state : State} {event : Event} {events : List Event}

theorem Always.cons {holds : State → Prop}
    (always : Always hasReader state (event :: events) holds) :
    holds (state.step hasReader event) ∧
      Always hasReader (state.step hasReader event) events holds := by
  have later : Always hasReader (state.step hasReader event) events holds := fun recent isPrefix =>
    always (event :: recent) (List.cons_prefix_cons.mpr ⟨rfl, isPrefix⟩)
  exact ⟨later [] events.nil_prefix, later⟩

theorem Always.append {holds : State → Prop} (always : Always hasReader state events holds)
    (last : holds (state.run hasReader (events ++ [event]))) :
    Always hasReader state (events ++ [event]) holds := by
  intro recent isPrefix
  rcases List.prefix_concat_iff.mp isPrefix with rfl | earlier
  · exact last
  · exact always recent earlier

theorem Never.nil {occurs : State → Event → Prop} : Never hasReader state [] occurs := by
  intro recent event isPrefix
  simp at isPrefix

theorem Never.cons {occurs : State → Event → Prop}
    (never : Never hasReader state (event :: events) occurs) :
    ¬ occurs state event ∧ Never hasReader (state.step hasReader event) events occurs := by
  constructor
  · exact never [] event (List.cons_prefix_cons.mpr ⟨rfl, events.nil_prefix⟩)
  · intro recent last isPrefix
    exact never (event :: recent) last (List.cons_prefix_cons.mpr ⟨rfl, isPrefix⟩)

theorem Never.drop {occurs : State → Event → Prop} {earlier : List Event}
    (never : Never hasReader state (earlier ++ events) occurs) :
    Never hasReader (state.run hasReader earlier) events occurs := by
  induction earlier generalizing state with
  | nil => exact never
  | cons event earlier ih => exact ih never.cons.2

theorem Never.append {occurs : State → Event → Prop} (never : Never hasReader state events occurs)
    (last : ¬ occurs (state.run hasReader events) event) :
    Never hasReader state (events ++ [event]) occurs := by
  intro recent other isPrefix
  rcases List.prefix_concat_iff.mp isPrefix with same | earlier
  · obtain ⟨rfl, rfl⟩ := List.append_singleton_inj.mp same
    exact last
  · exact never recent other earlier

end

/-- An event installs text under the edits that waited in an entry: text that was read, or the
entry's own if there is no reader or the read failed. -/
inductive Loads (hasReader : Bool) (state : State) (path : String) :
    Event → Entry → String → Prop
  | read {id generation : Nat} {text : String} {entry : Entry}
      (job : state.job? id = some ⟨id, path, .reading entry.birth generation⟩)
      (known : state.registry.get? path = some entry) (waits : entry.needsReload = true) :
      Loads hasReader state path (.read id (.ok text)) entry text
  | unreadable {id generation : Nat} {entry : Entry}
      (job : state.job? id = some ⟨id, path, .reading entry.birth generation⟩)
      (known : state.registry.get? path = some entry) (loaded : entry.loaded = true)
      (queued : entry.pending ≠ []) :
      Loads hasReader state path (.read id (.error .unreadable)) entry entry.text
  | unread {id : Nat} {entry : Entry} (alone : hasReader = false)
      (job : state.job? id = some ⟨id, path, .delayed⟩)
      (known : state.registry.get? path = some entry) (waits : entry.needsReload = true) :
      Loads hasReader state path (.fire id) entry entry.text

/-- An event brings a result that counts: of the entry for which it was built nothing was notified
since the build began. -/
inductive Accepts (state : State) (path : String) : Event → Entry → String → Built → Prop
  | intro {id : Nat} {entry : Entry} {text : String} {built : Built}
      (job : state.job? id = some ⟨id, path, .building entry.birth entry.generation text⟩)
      (known : state.registry.get? path = some entry) :
      Accepts state path (.build id (some built)) entry text built

/-- An event is the one for which a job waits. -/
inductive Wakes (state : State) : Event → Job → Prop
  | fire {id : Nat} {path : String} (job : state.job? id = some ⟨id, path, .delayed⟩) :
      Wakes state (.fire id) ⟨id, path, .delayed⟩
  | read {id birth generation : Nat} {path : String} {result : Except ReadFailure String}
      (job : state.job? id = some ⟨id, path, .reading birth generation⟩) :
      Wakes state (.read id result) ⟨id, path, .reading birth generation⟩
  | build {id birth generation : Nat} {path text : String} {result : Option Built}
      (job : state.job? id = some ⟨id, path, .building birth generation text⟩) :
      Wakes state (.build id result) ⟨id, path, .building birth generation text⟩

/-- Why a job ends and leaves nothing behind. -/
inductive Ends (state : State) : Event → Job → Prop
  /-- There is nothing to do when the delay is over. -/
  | absent {id : Nat} {path : String} (unknown : state.registry.get? path = none) :
      Ends state (.fire id) ⟨id, path, .delayed⟩
  /-- The entry that the job works for is gone. -/
  | gone {event : Event} {id birth generation : Nat} {path : String} {stage : Stage}
      (works : stage = .reading birth generation ∨ ∃ text, stage = .building birth generation text)
      (unknown : state.entryOf? path birth = none) : Ends state event ⟨id, path, stage⟩
  | broken {id : Nat} {job : Job} : Ends state (.read id (.error .broken)) job
  | unread {id birth generation : Nat} {path : String} {entry : Entry}
      (known : state.entryOf? path birth = some entry)
      (idle : ¬ (entry.loaded = true ∧ entry.pending ≠ []))
      (stale : entry.generation ≠ generation) :
      Ends state (.read id (.error .unreadable)) ⟨id, path, .reading birth generation⟩
  | failed {id birth generation : Nat} {path text : String} {entry : Entry}
      (known : state.entryOf? path birth = some entry) (stale : entry.generation ≠ generation) :
      Ends state (.build id none) ⟨id, path, .building birth generation text⟩
  /-- The result is stale, and another job will bring a better one. -/
  | stale {id birth generation : Nat} {path text : String} {built : Built} {entry : Entry}
      (known : state.entryOf? path birth = some entry) (stale : entry.generation ≠ generation)
      (followed : entry.dirty = true →
        (state.drop id).isArmed path = true ∨ 0 < (state.drop id).rebuilding path) :
      Ends state (.build id (some built)) ⟨id, path, .building birth generation text⟩

/-- What an event can do. -/
inductive Step (hasReader : Bool) (state : State) : Event → State → Prop
  /-- The event does not apply. -/
  | ignored {event : Event}
      (silent : ∀ notice, event = .notice notice → Language.isSupported notice.path →
        (∃ path entry, notice = .wanted path ∧ state.registry.get? path = some entry) ∨
          ∃ path, notice = .deleted path ∧ state.registry.get? path = none) :
      Step hasReader state event state
  | opened {path text : String} (supported : Language.isSupported path) :
      Step hasReader state (.notice (.opened path text))
        ({ state with registry := state.registry.opening path text }.schedule path)
  | edited {path : String} {edits : List Edit} (supported : Language.isSupported path) :
      Step hasReader state (.notice (.edited path edits))
        ({ state with registry := state.registry.change path edits }.schedule path)
  | changed {path : String} (supported : Language.isSupported path) :
      Step hasReader state (.notice (.changed path))
        ({ state with registry := state.registry.markReload path }.schedule path)
  | wanted {path : String} (supported : Language.isSupported path)
      (unknown : state.registry.get? path = none) :
      Step hasReader state (.notice (.wanted path))
        ({ state with registry := state.registry.markReload path }.schedule path)
  | deleted {path : String} {entry : Entry} (known : state.registry.get? path = some entry) :
      Step hasReader state (.notice (.deleted path))
        ({ state with registry := state.registry.remove path }.cancel path)
  | forgotten {path : String} :
      Step hasReader state (.forget path) { state with registry := state.registry.remove path }
  | closed : Step hasReader state .close state.close
  | dropped {event : Event} {job : Job} (wakes : Wakes state event job)
      (ends : Ends state event job) : Step hasReader state event (state.drop job.id)
  | reading {id : Nat} {path : String} {entry : Entry} (reader : hasReader = true)
      (wakes : Wakes state (.fire id) ⟨id, path, .delayed⟩)
      (known : state.registry.get? path = some entry) (waits : entry.needsReload = true) :
      Step hasReader state (.fire id)
        (state.setStage id (.reading entry.birth entry.generation))
  | building {event : Event} {job : Job} {entry : Entry} (wakes : Wakes state event job)
      (known : state.registry.get? job.path = some entry) (current : entry.needsReload = false) :
      Step hasReader state event
        (state.setStage job.id (.building entry.birth entry.generation entry.text))
  | loaded {event : Event} {job : Job} {entry : Entry} {base : String}
      (wakes : Wakes state event job) (loads : Loads hasReader state job.path event entry base) :
      Step hasReader state event
        ((state.modify job.path (·.load base)).setStage job.id
          (.building entry.birth entry.generation (entry.load base).text))
  /-- The file cannot be read, and there are no edits to go on with. -/
  | unread {id : Nat} {path : String} {entry : Entry}
      (wakes : Wakes state (.read id (.error .unreadable))
        ⟨id, path, .reading entry.birth entry.generation⟩)
      (known : state.registry.get? path = some entry)
      (idle : ¬ (entry.loaded = true ∧ entry.pending ≠ [])) :
      Step hasReader state (.read id (.error .unreadable))
        ((state.modify path fun entry => { entry with needsReload := false, dirty := false }).drop
          id)
  | failed {id : Nat} {path text : String} {entry : Entry}
      (wakes : Wakes state (.build id none)
        ⟨id, path, .building entry.birth entry.generation text⟩)
      (known : state.registry.get? path = some entry) :
      Step hasReader state (.build id none)
        ((state.drop id).modify path fun entry => { entry with dirty := false })
  | accepted {event : Event} {job : Job} {entry : Entry} {text : String} {built : Built}
      (wakes : Wakes state event job) (accepts : Accepts state job.path event entry text built) :
      Step hasReader state event ((state.drop job.id).modify job.path (accept built))
  /-- The result is stale, and no other job will bring one. -/
  | rearmed {id birth generation : Nat} {path text : String} {built : Built} {entry : Entry}
      (wakes : Wakes state (.build id (some built)) ⟨id, path, .building birth generation text⟩)
      (known : state.entryOf? path birth = some entry) (dirty : entry.dirty = true)
      (stale : entry.generation ≠ generation)
      (last : (state.drop id).isArmed path = false ∧ (state.drop id).rebuilding path = 0) :
      Step hasReader state (.build id (some built)) ((state.drop id).schedule path)

theorem job?_id {state : State} {id : Nat} {job : Job} (found : state.job? id = some job) :
    job.id = id := by
  simpa using List.find?_some found

theorem entryOf?_eq_some {state : State} {path : String} {birth : Nat} {entry : Entry} :
    state.entryOf? path birth = some entry ↔
      state.registry.get? path = some entry ∧ entry.birth = birth := by
  simp [entryOf?, Option.filter_eq_some_iff]

theorem startBuild_eq {state : State} {path : String} {entry : Entry} (id : Nat)
    (known : state.registry.get? path = some entry) :
    (state.startBuild id path).1 =
      state.setStage id (.building entry.birth entry.generation entry.text) := by
  simp [startBuild, known]

theorem startBuild_load {state : State} {path : String} {entry : Entry} (id : Nat) (base : String)
    (known : state.registry.get? path = some entry) :
    ((state.modify path (·.load base)).startBuild id path).1 =
      (state.modify path (·.load base)).setStage id
        (.building entry.birth entry.generation (entry.load base).text) := by
  have loaded : (state.modify path (·.load base)).registry.get? path = some (entry.load base) := by
    simp [State.modify, Registry.get?_modify, known]
  rw [startBuild_eq id loaded, Entry.load_eq]

theorem step_notice {hasReader : Bool} {state : State} (notice : Notice) :
    Step hasReader state (.notice notice) (state.step hasReader (.notice notice)) := by
  cases notice with
  | opened path text | edited path edits | changed path =>
    simp only [step, State.notify]
    split
    · next supported => constructor; exact supported
    · next unsupported =>
      exact .ignored (by rintro _ ⟨rfl⟩ supported; exact absurd supported unsupported)
  | deleted path =>
    simp only [step, State.notify]
    split
    · next present =>
      obtain ⟨entry, known⟩ := Option.isSome_iff_exists.mp present
      exact .deleted known
    · next missing =>
      have unknown : state.registry.get? path = none := by simpa [Registry.contains] using missing
      exact .ignored (by rintro _ ⟨rfl⟩ _; exact .inr ⟨path, rfl, unknown⟩)
  | wanted path =>
    simp only [step, State.notify]
    split
    · next supported =>
      split
      · next present =>
        obtain ⟨entry, known⟩ := Option.isSome_iff_exists.mp present
        exact .ignored (by rintro _ ⟨rfl⟩ _; exact .inl ⟨path, entry, rfl, known⟩)
      · next missing => exact .wanted supported (by simpa [Registry.contains] using missing)
    · next unsupported =>
      exact .ignored (by rintro _ ⟨rfl⟩ supported; exact absurd supported unsupported)

theorem step_fire {hasReader : Bool} {state : State} (id : Nat) :
    Step hasReader state (.fire id) (state.step hasReader (.fire id)) := by
  simp only [step]
  split
  · next path found =>
    obtain rfl := job?_id found
    have wakes := Wakes.fire found
    unfold State.fire
    split
    · next unknown => exact .dropped wakes (.absent unknown)
    · next entry known =>
      split
      · next current =>
        rw [startBuild_eq _ known]
        exact .building wakes known (by simpa using current)
      · next waits =>
        have waits : entry.needsReload = true := by simpa using waits
        split
        · next reader => exact .reading reader wakes known waits
        · next alone =>
          rw [startBuild_load _ _ known]
          exact .loaded wakes (.unread (by simpa using alone) found known waits)
  · exact .ignored (by simp)

theorem step_read {hasReader : Bool} {state : State} (id : Nat)
    (result : Except ReadFailure String) :
    Step hasReader state (.read id result) (state.step hasReader (.read id result)) := by
  simp only [step]
  split
  · next path birth generation found =>
    obtain rfl := job?_id found
    have wakes : Wakes state (.read _ result) _ := .read found
    unfold finishRead
    split
    · exact .dropped wakes .broken
    · next unknown => exact .dropped wakes (.gone (.inl rfl) unknown)
    · next text entry found' =>
      obtain ⟨known, rfl⟩ := entryOf?_eq_some.mp found'
      split
      · next waits =>
        rw [startBuild_load _ _ known]
        exact .loaded wakes (.read found known waits)
      · next current =>
        rw [startBuild_eq _ known]
        exact .building wakes known (by simpa using current)
    · next entry found' =>
      obtain ⟨known, rfl⟩ := entryOf?_eq_some.mp found'
      split
      · next queued =>
        have queued : entry.loaded = true ∧ entry.pending ≠ [] := by simpa using queued
        rw [startBuild_load _ _ known]
        exact .loaded wakes (.unreadable found known queued.1 queued.2)
      · next idle =>
        have idle : ¬ (entry.loaded = true ∧ entry.pending ≠ []) := by simpa using idle
        split
        · next current =>
          subst current
          exact .unread wakes known idle
        · next stale => exact .dropped wakes (.unread found' idle stale)
  · exact .ignored (by simp)

theorem step_build {hasReader : Bool} {state : State} (id : Nat) (result : Option Built) :
    Step hasReader state (.build id result) (state.step hasReader (.build id result)) := by
  simp only [step]
  split
  · next path birth generation text found =>
    obtain rfl := job?_id found
    have wakes : Wakes state (.build _ result) _ := .build found
    simp only [finishBuild]
    split
    · next unknown => exact .dropped wakes (.gone (.inr ⟨text, rfl⟩) unknown)
    · next entry found' =>
      obtain ⟨known, rfl⟩ := entryOf?_eq_some.mp found'
      split
      · next current =>
        subst current
        exact .failed wakes known
      · next stale => exact .dropped wakes (.failed found' stale)
    · next built entry found' =>
      obtain ⟨known, rfl⟩ := entryOf?_eq_some.mp found'
      split
      · next current =>
        subst current
        exact .accepted wakes (.intro found known)
      · next stale =>
        split
        · next last =>
          simp only [Bool.and_eq_true, Bool.not_eq_true', decide_eq_true_eq] at last
          exact .rearmed wakes found' last.1.1 stale ⟨last.1.2, last.2⟩
        · next followed =>
          refine .dropped wakes (.stale found' stale ?_)
          intro dirty
          simp only [dirty, Bool.true_and, Bool.and_eq_true, Bool.not_eq_true', decide_eq_true_eq,
            not_and] at followed
          by_contra none
          obtain ⟨unarmed, idle⟩ := not_or.mp none
          exact followed (by simpa using unarmed) (Nat.eq_zero_of_not_pos idle)
  · exact .ignored (by simp)

theorem step_spec (hasReader : Bool) (state : State) (event : Event) :
    Step hasReader state event (state.step hasReader event) := by
  cases event with
  | notice notice => exact step_notice notice
  | fire id => exact step_fire id
  | read id result => exact step_read id result
  | build id result => exact step_build id result
  | forget path => exact .forgotten
  | close => exact .closed

/-! ## The entry of a path -/

/-- What the entry of a path can be after an event. -/
inductive Becomes (hasReader : Bool) (state : State) (path : String) : Event → Entry → Prop
  /-- The entry stays as it was. No notification about a known file is overheard. -/
  | kept {event : Event} {entry : Entry} (known : state.registry.get? path = some entry)
      (silent : Language.isSupported path → ∀ notice, event = .notice notice →
        notice.path = path → notice = .wanted path) :
      Becomes hasReader state path event entry
  | opened {text : String} (supported : Language.isSupported path) :
      Becomes hasReader state path (.notice (.opened path text))
        ((state.registry.entryFor path).opening text)
  | edited {edits : List Edit} (supported : Language.isSupported path) :
      Becomes hasReader state path (.notice (.edited path edits))
        ((state.registry.entryFor path).change edits)
  | marked {event : Event} (supported : Language.isSupported path)
      (cause : event = .notice (.changed path) ∨ event = .notice (.wanted path)) :
      Becomes hasReader state path event (state.registry.entryFor path).markReload
  | loaded {event : Event} {entry : Entry} {base : String}
      (loads : Loads hasReader state path event entry base) :
      Becomes hasReader state path event (entry.load base)
  | unread {id : Nat} {entry : Entry} (known : state.registry.get? path = some entry)
      (idle : ¬ (entry.loaded = true ∧ entry.pending ≠ [])) :
      Becomes hasReader state path (.read id (.error .unreadable))
        { entry with needsReload := false, dirty := false }
  | failed {id : Nat} {entry : Entry} (known : state.registry.get? path = some entry) :
      Becomes hasReader state path (.build id none) { entry with dirty := false }
  | accepted {event : Event} {entry : Entry} {text : String} {built : Built}
      (accepts : Accepts state path event entry text built) :
      Becomes hasReader state path event (accept built entry)

@[simp]
theorem schedule_registry (state : State) (path : String) :
    (state.schedule path).registry = state.registry := by
  unfold schedule
  split <;> rfl

theorem accept_eq (built : Built) (entry : Entry) :
    accept built entry =
      { entry with
        dirty := false
        hints :=
          if built.hasErrors && !entry.hints.isEmpty then entry.hints else built.hints } := by
  unfold accept
  split <;> rfl

@[simp]
theorem accept_path (built : Built) (entry : Entry) : (accept built entry).path = entry.path := by
  rw [accept_eq]

section

variable {hasReader : Bool} {state next : State} {path : String} {event : Event} {entry : Entry}
  {job : Job}

theorem Loads.known {base : String} (loads : Loads hasReader state path event entry base) :
    state.registry.get? path = some entry := by
  cases loads <;> assumption

theorem Accepts.known {text : String} {built : Built}
    (accepts : Accepts state path event entry text built) :
    state.registry.get? path = some entry := by
  cases accepts
  assumption

theorem Becomes.kept_of_ne {notice : Notice} (different : path ≠ notice.path)
    (found : state.registry.get? path = some entry) :
    Becomes hasReader state path (.notice notice) entry := by
  refine .kept found ?_
  rintro _ _ ⟨rfl⟩ same
  exact absurd same.symm different

theorem Becomes.kept_of_wakes (wakes : Wakes state event job)
    (found : state.registry.get? path = some entry) :
    Becomes hasReader state path event entry := by
  refine .kept found ?_
  rintro _ notice rfl
  cases wakes

/-- A job changes the entry of its path. -/
theorem Becomes.modify {change : Entry → Entry} {old : Entry} (wakes : Wakes state event job)
    (keeps : ∀ entry, (change entry).path = entry.path)
    (known : state.registry.get? job.path = some old)
    (changed : Becomes hasReader state job.path event (change old))
    (found : (state.registry.modify job.path change).get? path = some entry) :
    Becomes hasReader state path event entry := by
  rw [Registry.get?_modify _ _ _ keeps] at found
  split at found
  · next same =>
    subst same
    rw [known] at found
    exact Option.some.inj found ▸ changed
  · exact kept_of_wakes wakes found

/-- A notification changes the entry of its path. -/
theorem Becomes.notify {notice : Notice} {change : Entry → Entry}
    (keeps : ∀ entry, (change entry).path = entry.path)
    (changed : Becomes hasReader state notice.path (.notice notice)
      (change (state.registry.entryFor notice.path)))
    (found : ((state.registry.ensure notice.path).modify notice.path change).get? path =
      some entry) : Becomes hasReader state path (.notice notice) entry := by
  rw [Registry.get?_ensure_modify _ _ _ keeps] at found
  split at found
  · next same =>
    subst same
    exact Option.some.inj found ▸ changed
  · next different => exact kept_of_ne different found

theorem becomes_of_step (step : Step hasReader state event next)
    (found : next.registry.get? path = some entry) : Becomes hasReader state path event entry := by
  cases step with
  | ignored silent =>
    refine .kept found ?_
    rintro supported notice rfl rfl
    rcases silent notice rfl supported with ⟨_, _, rfl, _⟩ | ⟨_, rfl, unknown⟩
    · rfl
    · rw [Notice.path, unknown] at found
      simp at found
  | opened supported =>
    rw [schedule_registry] at found
    exact .notify (by intro; rfl) (.opened supported) found
  | edited supported =>
    rw [schedule_registry] at found
    exact .notify (by simp) (.edited supported) found
  | changed supported =>
    rw [schedule_registry] at found
    exact .notify (by intro; rfl) (.marked supported (.inl rfl)) found
  | wanted supported unknown =>
    rw [schedule_registry] at found
    exact .notify (by intro; rfl) (.marked supported (.inr rfl)) found
  | deleted known =>
    simp only [cancel, Registry.get?_remove] at found
    split at found
    · simp at found
    · next different => exact .kept_of_ne different found
  | forgotten =>
    simp only [Registry.get?_remove] at found
    split at found
    · simp at found
    · exact .kept found (by simp)
  | closed => exact .kept found (by simp)
  | dropped wakes _ => exact .kept_of_wakes wakes found
  | reading _ wakes _ _ => exact .kept_of_wakes wakes found
  | building wakes _ _ => exact .kept_of_wakes wakes found
  | loaded wakes loads => exact .modify wakes (by simp) loads.known (.loaded loads) found
  | unread wakes known idle => exact .modify wakes (by intro; rfl) known (.unread known idle) found
  | failed wakes known => exact .modify wakes (by intro; rfl) known (.failed known) found
  | accepted wakes accepts =>
    exact .modify wakes (by simp) accepts.known (.accepted accepts) found
  | rearmed wakes _ _ _ _ =>
    rw [schedule_registry] at found
    exact .kept_of_wakes wakes found

theorem step_becomes (found : (state.step hasReader event).registry.get? path = some entry) :
    Becomes hasReader state path event entry :=
  becomes_of_step (step_spec hasReader state event) found

end

end Inlay.Update
