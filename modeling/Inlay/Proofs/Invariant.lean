import Inlay.Proofs.Run

/-!
What holds in every state of a run.

The text that a job builds is the text of its entry as long as nothing was notified since. A text
is replaced only while it is out of date, a build starts only when it is not, and it falls out of
date only with a notification, which raises the generation.
-/

namespace Inlay

/-- How the marks of an entry go together. -/
structure Entry.Consistent (entry : Entry) : Prop where
  opened : entry.opened = true →
    entry.loaded = true ∧ entry.needsReload = false ∧ entry.pending = []
  queued : entry.loaded = true → entry.pending ≠ [] → entry.needsReload = true

/-- Nothing is queued in an entry that does not wait. -/
theorem Entry.Consistent.pending_of_idle {entry : Entry} (consistent : entry.Consistent)
    (idle : entry.isWaiting = false) : entry.pending = [] := by
  simp only [Entry.isWaiting, Bool.or_eq_false_iff, Bool.not_eq_false'] at idle
  by_contra queued
  have waits := consistent.queued idle.1 queued
  simp [idle.2] at waits

namespace Update

open State

/-- The entry, and its generation, that a job works for. -/
def Job.WorksFor (job : Job) (birth generation : Nat) : Prop :=
  job.stage = .reading birth generation ∨ ∃ text, job.stage = .building birth generation text

/-- Jobs are told apart by their numbers. -/
structure Numbered (state : State) : Prop where
  unique : (state.jobs.map (·.id)).Nodup
  issued : ∀ job ∈ state.jobs, job.id < state.issued

structure Valid (state : State) : Prop where
  numbered : Numbered state
  supported : ∀ path entry, state.registry.get? path = some entry → Language.isSupported path
  born : ∀ path entry, state.registry.get? path = some entry → entry.birth < state.registry.births
  consistent : ∀ path entry, state.registry.get? path = some entry → entry.Consistent
  works : ∀ job ∈ state.jobs, ∀ birth generation, job.WorksFor birth generation →
    birth < state.registry.births ∧
      ∀ entry, state.registry.get? job.path = some entry → entry.birth = birth →
        generation ≤ entry.generation
  builds : ∀ job ∈ state.jobs, ∀ birth generation text,
    job.stage = .building birth generation text →
      ∀ entry, state.registry.get? job.path = some entry → entry.birth = birth →
        entry.generation = generation → entry.needsReload = false ∧ entry.text = text

theorem valid_initial : Valid .initial := by
  refine ⟨⟨?_, ?_⟩, ?_, ?_, ?_, ?_, ?_⟩ <;> simp [State.initial, Registry.empty, Registry.get?]

/-! ## Entries -/

theorem consistent_new (path : String) (birth : Nat) : (Entry.new path birth).Consistent := by
  constructor <;> simp [Entry.new]

theorem consistent_change {entry : Entry} (consistent : entry.Consistent) (edits : List Edit) :
    (entry.change edits).Consistent := by
  unfold Entry.change
  split
  · next waiting =>
    have unopened : entry.opened = false := by
      by_contra opened
      obtain ⟨loaded, current, _⟩ := consistent.opened (by simpa using opened)
      simp [Entry.isWaiting, loaded, current] at waiting
    constructor <;> simp [Entry.bump, unopened]
  · constructor
    · intro opened
      simpa [Entry.bump] using consistent.opened (by simpa [Entry.bump] using opened)
    · intro loaded queued
      simpa [Entry.bump] using consistent.queued (by simpa [Entry.bump] using loaded)
        (by simpa [Entry.bump] using queued)

theorem consistent_markReload {entry : Entry} (consistent : entry.Consistent) :
    entry.markReload.Consistent := by
  constructor
  · intro opened
    obtain ⟨loaded, current, empty⟩ := consistent.opened opened
    simp_all [Entry.markReload, Entry.bump]
  · intro loaded queued
    have waits := consistent.queued loaded queued
    simp [Entry.markReload, Entry.bump, waits]

theorem consistent_load {entry : Entry} (text : String) : (entry.load text).Consistent := by
  rw [Entry.load_eq]
  constructor <;> simp

theorem entryFor_consistent {registry : Registry} {path : String}
    (valid : ∀ entry, registry.get? path = some entry → entry.Consistent) :
    (registry.entryFor path).Consistent := by
  unfold Registry.entryFor
  cases found : registry.get? path with
  | none => exact consistent_new path registry.births
  | some entry => exact valid entry found

section

variable {hasReader : Bool} {state : State} {path : String} {event : Event} {entry : Entry}

theorem Becomes.consistent (becomes : Becomes hasReader state path event entry)
    (valid : ∀ entry, state.registry.get? path = some entry → entry.Consistent) :
    entry.Consistent := by
  cases becomes with
  | kept known _ => exact valid entry known
  | opened _ => constructor <;> simp [Entry.opening, Entry.bump, Entry.replaceText]
  | edited _ => exact consistent_change (entryFor_consistent valid) _
  | marked _ _ => exact consistent_markReload (entryFor_consistent valid)
  | loaded _ => exact consistent_load _
  | unread known idle =>
    refine ⟨fun opened => ?_, fun loaded queued => absurd ⟨loaded, queued⟩ idle⟩
    obtain ⟨loaded, _, empty⟩ := (valid _ known).opened opened
    exact ⟨loaded, rfl, empty⟩
  | failed known => exact ⟨(valid _ known).opened, (valid _ known).queued⟩
  | accepted accepts =>
    rw [accept_eq]
    exact ⟨(valid _ accepts.known).opened, (valid _ accepts.known).queued⟩

/-- A notification makes a new entry or raises the generation of the old one. -/
theorem origin_of_notify (birth : entry.birth = (state.registry.entryFor path).birth)
    (generation : entry.generation = (state.registry.entryFor path).generation + 1)
    (dirty : entry.dirty = true) :
    (state.registry.get? path = none ∧ entry.birth = state.registry.births) ∨
      ∃ old, state.registry.get? path = some old ∧ entry.birth = old.birth ∧
        (entry.generation = old.generation + 1 ∧ entry.dirty = true ∨
          entry.generation = old.generation) := by
  rcases state.registry.entryFor_cases path with ⟨unknown, eq⟩ | ⟨old, known, eq⟩
  · rw [eq] at birth
    exact .inl ⟨unknown, birth⟩
  · rw [eq] at birth generation
    exact .inr ⟨old, known, birth, .inl ⟨generation, dirty⟩⟩

/-- An entry is new, or comes from the one before. Then it has the same generation, or a
notification raised it. -/
theorem Becomes.origin (becomes : Becomes hasReader state path event entry) :
    (state.registry.get? path = none ∧ entry.birth = state.registry.births) ∨
      ∃ old, state.registry.get? path = some old ∧ entry.birth = old.birth ∧
        (entry.generation = old.generation + 1 ∧ entry.dirty = true ∨
          entry.generation = old.generation) := by
  cases becomes with
  | kept known _ => exact .inr ⟨entry, known, rfl, .inr rfl⟩
  | opened _ => exact origin_of_notify rfl rfl rfl
  | edited _ => exact origin_of_notify (by simp) (by simp) (by simp)
  | marked _ _ => exact origin_of_notify rfl rfl rfl
  | loaded loads => exact .inr ⟨_, loads.known, by rw [Entry.load_eq], .inr (by rw [Entry.load_eq])⟩
  | unread known _ => exact .inr ⟨_, known, rfl, .inr rfl⟩
  | failed known => exact .inr ⟨_, known, rfl, .inr rfl⟩
  | accepted accepts =>
    exact .inr ⟨_, accepts.known, by rw [accept_eq], .inr (by rw [accept_eq])⟩

theorem Loads.needsReload {base : String} (loads : Loads hasReader state path event entry base)
    (consistent : entry.Consistent) : entry.needsReload = true := by
  cases loads with
  | read _ _ waits => exact waits
  | unreadable _ _ loaded queued => exact consistent.queued loaded queued
  | unread _ _ _ waits => exact waits

/-- Without a notification an entry whose text is current keeps its text, and its hints unless
a result is accepted. -/
theorem Becomes.settled {old : Entry} (becomes : Becomes hasReader state path event entry)
    (known : state.registry.get? path = some old) (consistent : old.Consistent)
    (current : old.needsReload = false) (same : entry.generation = old.generation) :
    entry.text = old.text ∧ entry.needsReload = false ∧
      (entry.hints = old.hints ∨
        ∃ text built, Accepts state path event old text built ∧ entry = accept built old) := by
  cases becomes with
  | kept known' _ =>
    obtain rfl := Option.some.inj (known.symm.trans known')
    exact ⟨rfl, current, .inl rfl⟩
  | opened _ =>
    rw [Registry.entryFor_of_get? known] at same
    simp [Entry.opening, Entry.bump, Entry.replaceText] at same
  | edited _ =>
    rw [Registry.entryFor_of_get? known] at same
    simp at same
  | marked _ _ =>
    rw [Registry.entryFor_of_get? known] at same
    simp [Entry.markReload, Entry.bump] at same
  | loaded loads =>
    obtain rfl := Option.some.inj (known.symm.trans loads.known)
    simp [loads.needsReload consistent] at current
  | unread known' _ =>
    obtain rfl := Option.some.inj (known.symm.trans known')
    exact ⟨rfl, rfl, .inl rfl⟩
  | failed known' =>
    obtain rfl := Option.some.inj (known.symm.trans known')
    exact ⟨rfl, current, .inl rfl⟩
  | accepted accepts =>
    obtain rfl := Option.some.inj (known.symm.trans accepts.known)
    refine ⟨by rw [accept_eq], by rw [accept_eq]; exact current, .inr ⟨_, _, accepts, rfl⟩⟩

end

/-! ## Jobs -/

theorem job?_of_mem {state : State} {job : Job} (unique : (state.jobs.map (·.id)).Nodup)
    (member : job ∈ state.jobs) : state.job? job.id = some job :=
  find?_of_nodup unique member

theorem numbered_filter {state : State} (numbered : Numbered state) (keep : Job → Bool) :
    Numbered { state with jobs := state.jobs.filter keep } := by
  constructor
  · exact (List.filter_sublist.map _).nodup numbered.unique
  · intro job member
    exact numbered.issued job (List.mem_filter.mp member).1

theorem numbered_schedule {state : State} (numbered : Numbered state) (path : String) :
    Numbered (state.schedule path) := by
  unfold schedule
  split
  · exact numbered
  · have others := numbered_filter numbered fun job => !(job.path == path && job.isDelayed)
    constructor
    · rw [List.map_append, List.nodup_append]
      refine ⟨others.unique, by simp, ?_⟩
      intro id member new isNew
      obtain ⟨job, known, rfl⟩ := List.mem_map.mp member
      obtain rfl : new = state.issued := by simpa using isNew
      exact Nat.ne_of_lt (others.issued job known)
    · intro job member
      rcases List.mem_append.mp member with known | new
      · exact Nat.lt_succ_of_lt (others.issued job known)
      · obtain rfl := List.mem_singleton.mp new
        exact Nat.lt_succ_self _

theorem numbered_setStage {state : State} (numbered : Numbered state) (id : Nat) (stage : Stage) :
    Numbered (state.setStage id stage) := by
  constructor
  · have ids : (state.setStage id stage).jobs.map (·.id) = state.jobs.map (·.id) := by
      simp only [setStage, List.map_map]
      apply List.map_congr_left
      intro job _
      simp only [Function.comp_apply]
      split <;> rfl
    rw [ids]
    exact numbered.unique
  · intro job member
    obtain ⟨old, known, rfl⟩ := List.mem_map.mp member
    split
    · exact numbered.issued old known
    · exact numbered.issued old known

theorem numbered_of_step {hasReader : Bool} {state next : State} {event : Event}
    (step : Step hasReader state event next) (numbered : Numbered state) : Numbered next := by
  have elsewhere : ∀ registry, Numbered { state with registry } := fun _ =>
    ⟨numbered.unique, numbered.issued⟩
  cases step with
  | ignored _ => exact numbered
  | opened _ | edited _ | changed _ | wanted _ _ => exact numbered_schedule (elsewhere _) _
  | deleted _ => exact numbered_filter (elsewhere _) _
  | forgotten => exact elsewhere _
  | closed => exact ⟨List.nodup_nil, by simp [close]⟩
  | dropped _ _ => exact numbered_filter numbered _
  | reading _ _ _ _ | building _ _ _ => exact numbered_setStage numbered _ _
  | loaded _ _ => exact numbered_setStage (elsewhere _) _ _
  | unread _ _ _ => exact numbered_filter (elsewhere _) _
  | failed _ _ | accepted _ _ =>
    have dropped := numbered_filter numbered
    exact ⟨(dropped _).unique, (dropped _).issued⟩
  | rearmed _ _ _ _ _ => exact numbered_schedule (numbered_filter numbered _) _

theorem Wakes.job? {state : State} {event : Event} {job : Job} (wakes : Wakes state event job) :
    state.job? job.id = some job := by
  cases wakes <;> assumption

/-- Only the job that an event wakes changes its stage. -/
theorem mem_setStage {state : State} {event : Event} {woken job : Job} {stage : Stage}
    (numbered : Numbered state) (wakes : Wakes state event woken)
    (member : job ∈ (state.setStage woken.id stage).jobs) :
    job ∈ state.jobs ∨ job = { woken with stage } := by
  obtain ⟨old, known, rfl⟩ := List.mem_map.mp member
  split
  · next same =>
    have found := job?_of_mem numbered.unique known
    rw [same, wakes.job?] at found
    exact .inr (Option.some.inj found ▸ rfl)
  · exact .inl known

theorem mem_schedule {state : State} {path : String} {job : Job}
    (member : job ∈ (state.schedule path).jobs) :
    job ∈ state.jobs ∨ job = ⟨state.issued, path, .delayed⟩ := by
  unfold schedule at member
  split at member
  · exact .inl member
  · rcases List.mem_append.mp member with known | new
    · exact .inl (List.mem_filter.mp known).1
    · exact .inr (List.mem_singleton.mp new)

/-- Where a job comes from that is there after an event. -/
inductive Arises (hasReader : Bool) (state : State) : Event → State → Job → Prop
  | kept {event : Event} {next : State} {job : Job} (member : job ∈ state.jobs) :
      Arises hasReader state event next job
  | armed {event : Event} {next : State} {path : String} :
      Arises hasReader state event next ⟨state.issued, path, .delayed⟩
  | reads {id : Nat} {path : String} {entry : Entry} (reader : hasReader = true)
      (wakes : Wakes state (.fire id) ⟨id, path, .delayed⟩)
      (known : state.registry.get? path = some entry) (waits : entry.needsReload = true) :
      Arises hasReader state (.fire id)
        (state.setStage id (.reading entry.birth entry.generation))
        ⟨id, path, .reading entry.birth entry.generation⟩
  | builds {event : Event} {next : State} {woken : Job} {entry : Entry}
      (wakes : Wakes state event woken) (known : next.registry.get? woken.path = some entry)
      (current : entry.needsReload = false) :
      Arises hasReader state event next
        { woken with stage := .building entry.birth entry.generation entry.text }

theorem arises_of_step {hasReader : Bool} {state next : State} {event : Event} {job : Job}
    (step : Step hasReader state event next) (numbered : Numbered state)
    (member : job ∈ next.jobs) : Arises hasReader state event next job := by
  cases step with
  | ignored _ | forgotten => exact .kept member
  | opened _ | edited _ | changed _ | wanted _ _ =>
    rcases mem_schedule member with old | rfl
    · exact .kept old
    · exact .armed
  | deleted _ | dropped _ _ | unread _ _ _ | failed _ _ | accepted _ _ =>
    exact .kept (List.mem_filter.mp member).1
  | closed => simp [close] at member
  | rearmed _ _ _ _ _ =>
    rcases mem_schedule member with old | rfl
    · exact .kept (List.mem_filter.mp old).1
    · exact .armed
  | reading reader wakes known waits =>
    rcases mem_setStage numbered wakes member with old | rfl
    · exact .kept old
    · exact .reads reader wakes known waits
  | building wakes known current =>
    rcases mem_setStage numbered wakes member with old | rfl
    · exact .kept old
    · exact .builds wakes known current
  | @loaded _ woken entry base wakes loads =>
    rcases mem_setStage numbered wakes member with old | rfl
    · exact .kept old
    · have stage : Stage.building entry.birth entry.generation (entry.load base).text =
          .building (entry.load base).birth (entry.load base).generation
            (entry.load base).text := by
        rw [Entry.load_eq]
      rw [stage]
      refine .builds wakes ?_ (by rw [Entry.load_eq])
      show (state.registry.modify woken.path (·.load base)).get? woken.path = _
      simp [Registry.get?_modify, loads.known]

/-- A job reads or builds for an entry as the entry is now. -/
def Job.Begins (job : Job) (entry : Entry) : Prop :=
  job.stage = .reading entry.birth entry.generation ∨
    job.stage = .building entry.birth entry.generation entry.text ∧ entry.needsReload = false

/-- A job was there before, or is delayed, or has just begun to work for the entry of its path. -/
theorem jobs_of_step {hasReader : Bool} {state next : State} {event : Event} {job : Job}
    (step : Step hasReader state event next) (numbered : Numbered state)
    (member : job ∈ next.jobs) :
    job ∈ state.jobs ∨ job.stage = .delayed ∨
      ∃ entry, next.registry.get? job.path = some entry ∧ job.Begins entry := by
  cases arises_of_step step numbered member with
  | kept old => exact .inl old
  | armed => exact .inr (.inl rfl)
  | reads _ _ known _ => exact .inr (.inr ⟨_, known, .inl rfl⟩)
  | builds _ known current => exact .inr (.inr ⟨_, known, .inr ⟨rfl, current⟩⟩)

/-! ## All of it, along a run -/

/-- What an event can do to the registry. -/
inductive Registers (registry : Registry) : Registry → Prop
  | kept : Registers registry registry
  | changed {path : String} {change : Entry → Entry}
      (keeps : ∀ entry, (change entry).path = entry.path) :
      Registers registry (registry.modify path change)
  | removed {path : String} : Registers registry (registry.remove path)
  | notified {path : String} {change : Entry → Entry} (supported : Language.isSupported path)
      (keeps : ∀ entry, (change entry).path = entry.path) :
      Registers registry ((registry.ensure path).modify path change)

theorem registers_of_step {hasReader : Bool} {state next : State} {event : Event}
    (step : Step hasReader state event next) : Registers state.registry next.registry := by
  cases step with
  | ignored _ | closed | dropped _ _ | reading _ _ _ _ | building _ _ _ => exact .kept
  | opened supported | changed supported | wanted supported _ =>
    rw [schedule_registry]
    exact .notified supported (by intro; rfl)
  | edited supported =>
    rw [schedule_registry]
    exact .notified supported (by simp)
  | deleted _ | forgotten => exact .removed
  | loaded _ _ => exact .changed (by simp)
  | unread _ _ _ | failed _ _ => exact .changed (by intro; rfl)
  | accepted _ _ => exact .changed (by simp)
  | rearmed _ _ _ _ _ =>
    rw [schedule_registry]
    exact .kept

theorem Registers.births_le {registry next : Registry} (registers : Registers registry next) :
    registry.births ≤ next.births := by
  cases registers with
  | kept | changed _ | removed => exact Nat.le_refl _
  | notified _ _ => exact registry.births_ensure _

/-- A path becomes known with a new birth, and only if its language is known. -/
theorem Registers.births_lt {registry next : Registry} {path : String} {entry : Entry}
    (registers : Registers registry next) (unknown : registry.get? path = none)
    (found : next.get? path = some entry) :
    registry.births < next.births ∧ Language.isSupported path := by
  cases registers with
  | kept => simp [unknown] at found
  | changed keeps => simp [Registry.get?_modify _ _ _ keeps, unknown] at found
  | removed => simp [Registry.get?_remove, unknown] at found
  | @notified noticed _ supported keeps =>
    rw [Registry.get?_ensure_modify _ _ _ keeps] at found
    split at found
    · next same =>
      subst same
      refine ⟨?_, supported⟩
      simp [Registry.modify, Registry.ensure, Registry.contains, unknown]
    · simp [unknown] at found

section

variable {hasReader : Bool} {state next : State} {event : Event}

theorem supported_of_step (step : Step hasReader state event next) (valid : Valid state)
    {path : String} {entry : Entry} (found : next.registry.get? path = some entry) :
    Language.isSupported path := by
  rcases (becomes_of_step step found).origin with ⟨unknown, _⟩ | ⟨old, known, _⟩
  · exact ((registers_of_step step).births_lt unknown found).2
  · exact valid.supported path old known

theorem born_of_step (step : Step hasReader state event next) (valid : Valid state)
    {path : String} {entry : Entry} (found : next.registry.get? path = some entry) :
    entry.birth < next.registry.births := by
  have registers := registers_of_step step
  rcases (becomes_of_step step found).origin with ⟨unknown, birth⟩ | ⟨old, known, birth, _⟩
  · rw [birth]
    exact (registers.births_lt unknown found).1
  · rw [birth]
    exact Nat.lt_of_lt_of_le (valid.born path old known) registers.births_le

/-- A job that was there before works for an entry that was there before, of a generation that the
entry had reached. -/
theorem origin_of_works (step : Step hasReader state event next) (valid : Valid state) {job : Job}
    {entry : Entry} {generation : Nat} (member : job ∈ state.jobs)
    (works : job.WorksFor entry.birth generation)
    (found : next.registry.get? job.path = some entry) :
    ∃ old, state.registry.get? job.path = some old ∧ old.birth = entry.birth ∧
      generation ≤ old.generation ∧ old.generation ≤ entry.generation := by
  obtain ⟨bound, least⟩ := valid.works job member _ _ works
  rcases (becomes_of_step step found).origin with ⟨_, new⟩ | ⟨old, known, same, grown⟩
  · omega
  · exact ⟨old, known, same.symm, least old known same.symm, by omega⟩

theorem works_of_step (step : Step hasReader state event next) (valid : Valid state) {job : Job}
    {birth generation : Nat} (member : job ∈ next.jobs) (works : job.WorksFor birth generation) :
    birth < next.registry.births ∧
      ∀ entry, next.registry.get? job.path = some entry → entry.birth = birth →
        generation ≤ entry.generation := by
  rcases jobs_of_step step valid.numbered member with old | delayed | ⟨now, found, begins⟩
  · have bound := (valid.works job old birth generation works).1
    refine ⟨Nat.lt_of_lt_of_le bound (registers_of_step step).births_le, ?_⟩
    rintro entry found rfl
    obtain ⟨before, _, _, reached, grown⟩ := origin_of_works step valid old works found
    exact Nat.le_trans reached grown
  · simp [Job.WorksFor, delayed] at works
  · have same : birth = now.birth ∧ generation = now.generation := by
      rcases begins with stage | ⟨stage, _⟩ <;> simp_all [Job.WorksFor]
    obtain ⟨rfl, rfl⟩ := same
    refine ⟨born_of_step step valid found, ?_⟩
    intro entry found' _
    obtain rfl := Option.some.inj (found.symm.trans found')
    exact Nat.le_refl _

theorem builds_of_step (step : Step hasReader state event next) (valid : Valid state) {job : Job}
    {entry : Entry} {text : String} (member : job ∈ next.jobs)
    (stage : job.stage = .building entry.birth entry.generation text)
    (found : next.registry.get? job.path = some entry) :
    entry.needsReload = false ∧ entry.text = text := by
  rcases jobs_of_step step valid.numbered member with old | delayed | ⟨now, found', begins⟩
  · obtain ⟨before, known, same, reached, grown⟩ :=
      origin_of_works step valid old (.inr ⟨text, stage⟩) found
    -- Had anything been notified, the generation would have passed that of the job.
    have still : entry.generation = before.generation := Nat.le_antisymm reached grown
    obtain ⟨current, built⟩ := valid.builds job old _ _ text stage before known same still.symm
    obtain ⟨kept, current', _⟩ :=
      (becomes_of_step step found).settled known (valid.consistent _ _ known) current still
    exact ⟨current', kept.trans built⟩
  · simp [delayed] at stage
  · obtain rfl := Option.some.inj (found.symm.trans found')
    rcases begins with reads | ⟨builds, current⟩
    · simp [reads] at stage
    · exact ⟨current, by simp_all⟩

end

theorem valid_step (hasReader : Bool) {state : State} (event : Event) (valid : Valid state) :
    Valid (state.step hasReader event) := by
  have step := step_spec hasReader state event
  refine ⟨numbered_of_step step valid.numbered, ?_, ?_, ?_, ?_, ?_⟩
  · intro path entry found
    exact supported_of_step step valid found
  · intro path entry found
    exact born_of_step step valid found
  · intro path entry found
    exact (becomes_of_step step found).consistent (valid.consistent path)
  · intro job member birth generation works
    exact works_of_step step valid member works
  · rintro job member _ _ text stage entry found rfl rfl
    exact builds_of_step step valid member stage found

theorem valid_run (hasReader : Bool) {state : State} (events : List Event) (valid : Valid state) :
    Valid (state.run hasReader events) := by
  induction events generalizing state with
  | nil => exact valid
  | cons event events ih => exact ih (valid_step hasReader event valid)

theorem valid_after (hasReader : Bool) (events : List Event) : Valid (after hasReader events) :=
  valid_run hasReader events valid_initial

/-- An entry that was born before a run was there when the run began. -/
theorem run_origin {hasReader : Bool} {state : State} {path : String} {entry : Entry}
    {events : List Event} (found : (state.run hasReader events).registry.get? path = some entry)
    (older : entry.birth < state.registry.births) : state.Has path entry.birth fun _ => True := by
  induction events generalizing state with
  | nil => exact ⟨entry, found, rfl, trivial⟩
  | cons event events ih =>
    have grows := (registers_of_step (step_spec hasReader state event)).births_le
    obtain ⟨now, known, birth, _⟩ := ih found (Nat.lt_of_lt_of_le older grows)
    rcases (step_becomes known).origin with ⟨_, new⟩ | ⟨old, known', birth', _⟩
    · omega
    · exact ⟨old, known', birth'.symm.trans birth, trivial⟩

end Update

end Inlay
