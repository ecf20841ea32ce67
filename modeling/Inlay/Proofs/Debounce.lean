import Inlay.Proofs.Delays

/-!
Bursts of notifications.

However many notifications about a path come before a delay is over, one job is left of them. It is
the one that fires, once. What it reads or builds is the entry with all of them applied: each has
raised the generation of the entry by one, and no job works for a generation that was passed before
it began.

The tasks of the other jobs were told to end, and may do so at any time. The table of the timers has
the one that is left.
-/

namespace Inlay

/-- What a notification does to the entry of its file. -/
def Notice.heed : Notice → Entry → Entry
  | opened _ text, entry => entry.opening text
  | edited _ edits, entry => entry.change edits
  | changed _, entry | wanted _, entry => entry.markReload
  | deleted _, entry => entry

theorem Notice.heed_impartial (told : Notice) : Entry.Impartial told.heed := by
  cases told with
  | opened _ text => exact .opening text
  | edited _ edits => exact .change edits
  | changed _ | wanted _ => exact .markReload
  | deleted _ => exact ⟨fun _ => rfl, fun _ _ => rfl⟩

theorem Notice.heed_generation {told : Notice} {registry : Registry} (arms : told.arms registry)
    (entry : Entry) : (told.heed entry).generation = entry.generation + 1 := by
  cases told with
  | opened _ _ | changed _ | wanted _ => rfl
  | edited _ edits => exact Entry.change_generation entry edits
  | deleted _ => simp [Notice.arms] at arms

namespace Update

open State

/-- An event takes the path out of the registry or ends the service. -/
def Removes (path : String) (event : Event) : Prop := event = .forget path ∨ Cancels path event

section

variable {hasReader : Bool} {state next : State} {path : String} {event : Event} {job : Job}
  {id : Nat}

/-! ## What the entry has gone through -/

/-- A notification that arms a job changes the entry of its file. -/
theorem get?_of_heeded (hasReader : Bool) {told : Notice}
    (heeded : event.heeded? state path = some told) :
    (state.step hasReader event).registry.get? path =
      some (told.heed (state.registry.entryFor path)) := by
  obtain ⟨rfl, about, supported, _, arms⟩ := heeded?_eq_some.mp heeded
  have registry : (state.step hasReader (.notice told)).registry =
      (state.registry.ensure path).modify path told.heed := by
    cases told with
    | opened noticed _ | edited noticed _ | changed noticed =>
      obtain rfl : noticed = path := about
      simp only [State.step, State.notify, supported, if_true, schedule_registry]
      rfl
    | deleted _ => simp [Notice.arms] at arms
    | wanted noticed =>
      obtain rfl : noticed = path := about
      have unknown : state.registry.contains noticed = false := by simpa [Notice.arms] using arms
      simp only [State.step, State.notify, supported, unknown, if_true, Bool.false_eq_true,
        if_false, schedule_registry]
      rfl
  rw [registry, Registry.get?_ensure_modify _ _ _ told.heed_impartial.path, if_pos rfl]

theorem step_of_unheeded (hasReader : Bool) {told : Notice} (about : told.path = path)
    (unclosed : state.closed = false) (unheeded : (Event.notice told).heeded? state path = none)
    (kept : ¬ Removes path (.notice told)) :
    state.step hasReader (.notice told) = state := by
  cases told with
  | opened noticed _ | edited noticed _ | changed noticed =>
    obtain rfl : noticed = path := about
    have unsupported : Language.isSupported noticed = false := by
      simpa [Event.heeded?, unclosed, Notice.arms, Notice.path] using unheeded
    simp [State.step, State.notify, unsupported]
  | deleted noticed =>
    obtain rfl : noticed = path := about
    exact absurd (.inr (.inl rfl)) kept
  | wanted noticed =>
    obtain rfl : noticed = path := about
    have silent : Language.isSupported noticed = true → state.registry.contains noticed = true := by
      simpa [Event.heeded?, unclosed, Notice.arms, Notice.path] using unheeded
    by_cases supported : Language.isSupported noticed = true
    · simp [State.step, State.notify, silent supported]
    · simp [State.step, supported]

theorem entryFor_anonymous (registry : Registry) (path : String) :
    (registry.entryFor path).anonymous =
      ((registry.get? path).map Entry.anonymous).getD (.new path 0) := by
  unfold Registry.entryFor
  cases registry.get? path <;> rfl

/-- While no job of the path does anything, its entry is the one before with all that was notified
in between. -/
theorem entryFor_run (hasReader : Bool) {events : List Event} (unclosed : state.closed = false)
    (kept : ∀ event ∈ events, ¬ Removes path event)
    (alone : Never hasReader state events fun state event =>
      ∃ job, Wakes state event job ∧ job.path = path) :
    ((state.run hasReader events).registry.entryFor path).anonymous =
      (state.heeded hasReader path events).foldl (fun entry told => told.heed entry)
        (state.registry.entryFor path).anonymous := by
  induction events generalizing state with
  | nil => rfl
  | cons event events ih =>
    obtain ⟨idle, alone'⟩ := alone.cons
    have step := step_spec hasReader state event
    have open' : event ≠ .close := fun close => kept event (.head _) (.inr (.inr close))
    refine (ih ((closed_of_step step open').trans unclosed)
      (fun event isLater => kept event (.tail _ isLater)) alone').trans ?_
    rw [heeded, List.foldl_append]
    congr 1
    cases heeded : event.heeded? state path with
    | some told =>
      rw [Registry.entryFor_of_get? (get?_of_heeded hasReader heeded)]
      exact told.heed_impartial.anonymous _
    | none =>
      have same : (state.step hasReader event).registry.get? path = state.registry.get? path := by
        by_contra changed
        rcases changed_by step changed with ⟨told, rfl, about⟩ | forget | woken
        · rw [step_of_unheeded hasReader about unclosed heeded (kept _ (.head _))] at changed
          exact changed rfl
        · exact kept event (.head _) (.inl forget)
        · exact idle woken
      rw [entryFor_anonymous, same, ← entryFor_anonymous]
      rfl

theorem known_of_step (step : Step hasReader state event next) (kept : ¬ Removes path event)
    {old : Entry} (known : state.registry.get? path = some old) :
    ∃ entry, next.registry.get? path = some entry := by
  have modified : ∀ other (change : Entry → Entry), (∀ entry, (change entry).path = entry.path) →
      ∃ entry, (state.registry.modify other change).get? path = some entry := by
    intro other change keeps
    rw [Registry.get?_modify _ _ _ keeps, known]
    split
    · exact ⟨_, rfl⟩
    · exact ⟨_, rfl⟩
  have notified : ∀ other (change : Entry → Entry), (∀ entry, (change entry).path = entry.path) →
      ∃ entry, ((state.registry.ensure other).modify other change).get? path = some entry := by
    intro other change keeps
    rw [Registry.get?_ensure_modify _ _ _ keeps, known]
    split
    · exact ⟨_, rfl⟩
    · exact ⟨_, rfl⟩
  cases step with
  | ignored _ | closed | dropped _ _ | reading _ _ _ _ | building _ _ _ => exact ⟨old, known⟩
  | opened _ | changed _ | wanted _ _ =>
    rw [schedule_registry]
    exact notified _ _ (by intro; rfl)
  | edited _ =>
    rw [schedule_registry]
    exact notified _ _ (by simp)
  | @deleted other _ _ =>
    have different : path ≠ other := by
      rintro rfl
      exact kept (.inr (.inl rfl))
    exact ⟨old, by simp [State.cancel, Registry.get?_remove, different, known]⟩
  | @forgotten other =>
    have different : path ≠ other := by
      rintro rfl
      exact kept (.inl rfl)
    exact ⟨old, by simp [Registry.get?_remove, different, known]⟩
  | loaded _ _ => exact modified _ _ (by simp)
  | unread _ _ _ | failed _ _ => exact modified _ _ (by intro; rfl)
  | accepted _ _ => exact modified _ _ (by simp)
  | rearmed _ _ _ _ _ => exact ⟨old, by rw [schedule_registry]; exact known⟩

/-- An entry that stays grows by one generation with each notification. -/
theorem grown_of_step (hasReader : Bool) (kept : ¬ Removes path event) {old : Entry}
    (known : state.registry.get? path = some old) :
    ∃ entry, (state.step hasReader event).registry.get? path = some entry ∧
      entry.birth = old.birth ∧
      old.generation + (event.heeded? state path).toList.length ≤ entry.generation := by
  cases heeded : event.heeded? state path with
  | some told =>
    obtain ⟨_, _, _, _, arms⟩ := heeded?_eq_some.mp heeded
    have found := get?_of_heeded hasReader heeded
    rw [Registry.entryFor_of_get? known] at found
    refine ⟨_, found, told.heed_impartial.keeps_birth old, ?_⟩
    rw [Notice.heed_generation arms]
    exact Nat.le_refl _
  | none =>
    have step := step_spec hasReader state event
    obtain ⟨entry, found⟩ := known_of_step step kept known
    rcases (becomes_of_step step found).origin with ⟨unknown, _⟩ | ⟨before, known', birth, grown⟩
    · simp [known] at unknown
    · obtain rfl := Option.some.inj (known.symm.trans known')
      refine ⟨entry, found, birth, ?_⟩
      simp only [Option.toList_none, List.length_nil]
      omega

theorem grown_run (hasReader : Bool) {events : List Event}
    (kept : ∀ event ∈ events, ¬ Removes path event) {old : Entry}
    (known : state.registry.get? path = some old) :
    ∃ entry, (state.run hasReader events).registry.get? path = some entry ∧
      entry.birth = old.birth ∧
      old.generation + (state.heeded hasReader path events).length ≤ entry.generation := by
  induction events generalizing state old with
  | nil => exact ⟨old, known, rfl, Nat.le_refl _⟩
  | cons event events ih =>
    obtain ⟨now, found, birth, grown⟩ := grown_of_step hasReader (kept event (.head _)) known
    obtain ⟨entry, found', birth', grown'⟩ :=
      ih (fun event isLater => kept event (.tail _ isLater)) found
    refine ⟨entry, found', birth'.trans birth, ?_⟩
    rw [heeded, List.length_append]
    omega

/-- After a burst the path is known, in a generation that counts all of it. -/
theorem burst_known (hasReader : Bool) {burst : List Event}
    (heeded : state.heeded hasReader path burst ≠ [])
    (kept : ∀ event ∈ burst, ¬ Removes path event) :
    ∃ entry, (state.run hasReader burst).registry.get? path = some entry ∧
      (∀ old, state.registry.get? path = some old → entry.birth = old.birth) ∧
      (state.registry.entryFor path).generation + (state.heeded hasReader path burst).length ≤
        entry.generation := by
  induction burst generalizing state with
  | nil => exact absurd rfl heeded
  | cons event burst ih =>
    have kept' := fun event isLater => kept event (.tail _ isLater)
    cases known : state.registry.get? path with
    | some old =>
      obtain ⟨entry, found, birth, grown⟩ := grown_run hasReader kept known
      refine ⟨entry, found, ?_, by rwa [Registry.entryFor_of_get? known]⟩
      rintro _ ⟨rfl⟩
      exact birth
    | none =>
      have new : (state.registry.entryFor path).generation = 0 := by
        simp [Registry.entryFor, known, Entry.new]
      cases first : event.heeded? state path with
      | some told =>
        obtain ⟨_, _, _, _, arms⟩ := heeded?_eq_some.mp first
        obtain ⟨entry, found, _, grown⟩ :=
          grown_run hasReader kept' (get?_of_heeded hasReader first)
        rw [Notice.heed_generation arms] at grown
        refine ⟨entry, found, by simp, ?_⟩
        rw [State.heeded, first, Option.toList_some, List.singleton_append, List.length_cons]
        omega
      | none =>
        have rest : state.heeded hasReader path (event :: burst) =
            (state.step hasReader event).heeded hasReader path burst := by
          simp [State.heeded, first]
        rw [rest] at heeded ⊢
        obtain ⟨entry, found, _, grown⟩ := ih heeded kept'
        exact ⟨entry, found, by simp, by omega⟩

/-! ## What the job works for that fires -/

/-- The job with this number works for the entry of that birth, in that generation or a later one,
and so does whatever it begins. -/
structure Serves (state : State) (path : String) (id birth generation : Nat) : Prop where
  old : id < state.issued
  known : state.Has path birth (generation ≤ ·.generation)
  works : ∀ job ∈ state.jobs, job.id = id → job.path = path ∧
    ∃ reached, generation ≤ reached ∧ job.WorksFor birth reached

theorem serves_step (hasReader : Bool) (valid : Valid state) {birth generation : Nat}
    (kept : ¬ Removes path event) (serves : Serves state path id birth generation) :
    Serves (state.step hasReader event) path id birth generation := by
  have step := step_spec hasReader state event
  obtain ⟨old, known, rfl, least⟩ := serves.known
  obtain ⟨entry, found, birth, grown⟩ := grown_of_step hasReader kept known
  generalize state.step hasReader event = next at step found ⊢
  refine ⟨Nat.lt_of_lt_of_le serves.old (issued_of_step step), ⟨entry, found, birth, by omega⟩, ?_⟩
  intro job member number
  cases arises_of_step step valid.numbered member with
  | kept before => exact serves.works job before number
  | armed => exact absurd number (Nat.ne_of_gt serves.old)
  | reads _ wakes _ _ =>
    obtain ⟨_, _, _, works⟩ := serves.works _ (List.mem_of_find?_eq_some wakes.job?) number
    simp [Job.WorksFor] at works
  | builds wakes found' _ =>
    obtain ⟨rfl, _⟩ := serves.works _ (List.mem_of_find?_eq_some wakes.job?) number
    obtain rfl := Option.some.inj (found.symm.trans found')
    exact ⟨rfl, entry.generation, by omega, .inr ⟨entry.text, by rw [birth]⟩⟩

theorem serves_run (hasReader : Bool) (valid : Valid state) {birth generation : Nat}
    {events : List Event} (kept : ∀ event ∈ events, ¬ Removes path event)
    (serves : Serves state path id birth generation) :
    Serves (state.run hasReader events) path id birth generation := by
  induction events generalizing state with
  | nil => exact serves
  | cons event events ih =>
    exact ih (valid_step hasReader event valid) (fun event isLater => kept event (.tail _ isLater))
      (serves_step hasReader valid (kept event (.head _)) serves)

theorem serves_of_begins (numbered : Numbered state) (member : job ∈ state.jobs)
    {entry : Entry} (known : state.registry.get? job.path = some entry)
    (begins : job.Begins entry) :
    Serves state job.path job.id entry.birth entry.generation := by
  refine ⟨numbered.issued job member, ⟨entry, known, rfl, Nat.le_refl _⟩, ?_⟩
  intro other isOther number
  have found := job?_of_mem numbered.unique isOther
  rw [number, job?_of_mem numbered.unique member] at found
  obtain rfl := Option.some.inj found
  refine ⟨rfl, entry.generation, Nat.le_refl _, ?_⟩
  exact begins.imp_right fun builds => ⟨entry.text, builds.1⟩

/-- The job that fires begins to read or build for the entry of its path as it is then. -/
theorem begins_of_fire (hasReader : Bool) (valid : Valid state)
    (armed : state.delayedOf path = [job]) {entry : Entry}
    (known : state.registry.get? path = some entry) :
    ∃ begun ∈ (state.step hasReader (.fire job.id)).jobs, begun.id = job.id ∧ begun.path = path ∧
      ∃ now, (state.step hasReader (.fire job.id)).registry.get? path = some now ∧
        now.birth = entry.birth ∧ now.generation = entry.generation ∧ begun.Begins now := by
  have isDelayed : job ∈ state.delayedOf path := by simp [armed]
  obtain ⟨member, rfl, delayed⟩ := mem_delayedOf.mp isDelayed
  obtain ⟨id, path, stage⟩ := job
  obtain rfl : stage = .delayed := delayed
  have found := job?_of_mem valid.numbered.unique member
  have staged : ∀ (state : State) (stage : Stage), (⟨id, path, .delayed⟩ : Job) ∈ state.jobs →
      ⟨id, path, stage⟩ ∈ (state.setStage id stage).jobs := by
    intro state stage member
    exact List.mem_map.mpr ⟨_, member, if_pos rfl⟩
  simp only [State.step, found]
  unfold State.fire
  simp only [known]
  split
  · next current =>
    rw [startBuild_eq _ known]
    exact ⟨_, staged state _ member, rfl, rfl, entry, known, rfl, rfl,
      .inr ⟨rfl, by simpa using current⟩⟩
  split
  · exact ⟨_, staged state _ member, rfl, rfl, entry, known, rfl, rfl, .inl rfl⟩
  · rw [startBuild_load _ _ known]
    refine ⟨_, staged _ _ member, rfl, rfl, entry.load entry.text, ?_, ?_⟩
    · simp [setStage, State.modify, Registry.get?_modify, known]
    · rw [Entry.load_eq]
      exact ⟨rfl, rfl, .inr ⟨rfl, rfl⟩⟩

theorem unclosed_of_heeded {burst : List Event} (heeded : state.heeded hasReader path burst ≠ [])
    (kept : ∀ event ∈ burst, ¬ Removes path event) : state.closed = false := by
  induction burst generalizing state with
  | nil => exact absurd rfl heeded
  | cons event burst ih =>
    cases first : event.heeded? state path with
    | some told => exact (heeded?_eq_some.mp first).2.2.2.1
    | none =>
      have open' : event ≠ .close := fun close => kept event (.head _) (.inr (.inr close))
      rw [← closed_of_step (step_spec hasReader state event) open']
      exact ih (by simpa [State.heeded, first] using heeded)
        fun event isLater => kept event (.tail _ isLater)

theorem closed_run (hasReader : Bool) {events : List Event} (unclosing : .close ∉ events) :
    (state.run hasReader events).closed = state.closed := by
  induction events generalizing state with
  | nil => rfl
  | cons event events ih =>
    rw [List.mem_cons, not_or] at unclosing
    exact (ih unclosing.2).trans
      (closed_of_step (step_spec hasReader state event) (Ne.symm unclosing.1))

end

/-! ## Tasks that wait -/

/-- The task of a job that was armed and has not begun. -/
def Job.armed (job : Job) : Task := ⟨job, none, false⟩

namespace Scheduler

/-- The tasks of a path that wait for their delay to be over and were not told to end. -/
def waiting (scheduler : Scheduler) (path : String) : List Task :=
  scheduler.tasks.filter fun task => task.path == path && task.isDelayed && !task.cancelled

/-- The notification by which an occurrence arms a task of the path. -/
def heeded? (scheduler : Scheduler) (path : String) (occurrence : Occurrence) : Option Notice :=
  occurrence.event?.bind (·.heeded? scheduler.view path)

/-- The task of the path whose delay ends with an occurrence. -/
def fired? (scheduler : Scheduler) (path : String) : Occurrence → Option Nat
  | .event (.fire id) =>
    ((scheduler.live? id).filter fun task => task.path == path && task.isDelayed).map (·.id)
  | _ => none

/-- The notifications of a run that arm tasks of the path. -/
def heeded (hasReader : Bool) (path : String) (scheduler : Scheduler) :
    List Occurrence → List Notice
  | [] => []
  | occurrence :: rest =>
    (scheduler.heeded? path occurrence).toList ++
      (scheduler.step hasReader occurrence).heeded hasReader path rest

/-- The tasks of the path whose delay ends in a run. -/
def firings (hasReader : Bool) (path : String) (scheduler : Scheduler) :
    List Occurrence → List Nat
  | [] => []
  | occurrence :: rest =>
    (scheduler.fired? path occurrence).toList ++
      (scheduler.step hasReader occurrence).firings hasReader path rest

variable {hasReader : Bool} {scheduler : Scheduler} {path : String}

/-- A task that waits has not been put into a set. -/
theorem waiting_eq (exact : Exact scheduler) (path : String) :
    scheduler.waiting path = (scheduler.view.delayedOf path).map Job.armed := by
  have jobs : scheduler.view.delayedOf path = (scheduler.waiting path).map (·.toJob) := by
    simp only [State.delayedOf, State.jobsOf, view, waiting, List.filter_map, List.filter_filter]
    congr 1
    refine List.filter_congr fun task _ => ?_
    cases task.cancelled <;> simp [Bool.and_comm]
  rw [jobs, List.map_map]
  refine ((List.map_congr_left fun task member => ?_).trans (List.map_id _)).symm
  obtain ⟨isTask, own⟩ := List.mem_filter.mp member
  have own : (task.path = path ∧ task.stage = .delayed) ∧ task.cancelled = false := by
    simpa [Job.isDelayed] using own
  obtain ⟨job, running, cancelled⟩ := task
  obtain rfl : cancelled = false := own.2
  cases exact.holds _ isTask with
  | nothing running _ =>
    obtain rfl := running
    rfl
  | set _ begun _ _ => exact absurd own.1.2 begun

theorem waiting_eq_singleton (exact : Exact scheduler) {job : Job} :
    scheduler.waiting path = [job.armed] ↔ scheduler.view.delayedOf path = [job] := by
  rw [waiting_eq exact]
  constructor
  · intro only
    obtain ⟨other, eq, same⟩ := List.map_eq_singleton_iff.mp only
    rw [eq, show other = job from congrArg Task.toJob same]
  · intro only
    rw [only, List.map_singleton]

theorem heeded_eq (exact : Exact scheduler) (occurrences : List Occurrence) :
    scheduler.heeded hasReader path occurrences =
      scheduler.view.heeded hasReader path (eventsOf occurrences) := by
  induction occurrences generalizing scheduler with
  | nil => rfl
  | cons occurrence rest ih =>
    rw [heeded, ih (exact_step exact hasReader occurrence)]
    cases occurrence with
    | event event =>
      have next := (refines_event exact hasReader event).view
      exact congrArg (_ ++ State.heeded hasReader path · (eventsOf rest)) next
    | ending id =>
      exact congrArg (State.heeded hasReader path · (eventsOf rest)) (refines_ending exact id).2

theorem fired?_eq (exact : Exact scheduler) (event : Event) :
    scheduler.fired? path (.event event) = event.fired? scheduler.view path := by
  cases event with
  | fire id =>
    simp only [fired?, Event.fired?, job?_view exact.numbered]
    cases scheduler.live? id with
    | none => rfl
    | some task =>
      simp only [Option.map_some, Option.filter_some]
      split <;> rfl
  | notice _ | read _ _ | build _ _ | forget _ | close => rfl

theorem firings_eq (exact : Exact scheduler) (occurrences : List Occurrence) :
    scheduler.firings hasReader path occurrences =
      scheduler.view.firings hasReader path (eventsOf occurrences) := by
  induction occurrences generalizing scheduler with
  | nil => rfl
  | cons occurrence rest ih =>
    rw [firings, ih (exact_step exact hasReader occurrence)]
    cases occurrence with
    | event event =>
      have next := (refines_event exact hasReader event).view
      rw [fired?_eq exact]
      exact congrArg (_ ++ State.firings hasReader path · (eventsOf rest)) next
    | ending id =>
      exact congrArg (State.firings hasReader path · (eventsOf rest)) (refines_ending exact id).2

/-! ## Bursts -/

/-- One or more notifications arm tasks of the path. No delay of it ends meanwhile, and nobody
removes it. -/
structure Burst (hasReader : Bool) (path : String) (past burst : List Occurrence) : Prop where
  heeded : (after hasReader past).heeded hasReader path burst ≠ []
  unfired : (after hasReader past).firings hasReader path burst = []
  kept : ∀ event ∈ eventsOf burst, ¬ Removes path event

/-- What a task finds whose delay ends after a burst. -/
structure Sees (hasReader : Bool) (path : String) (past burst : List Occurrence) (task : Task)
    (entry : Entry) : Prop where
  known : (after hasReader (past ++ burst)).registry.get? path = some entry
  same : ∀ old, (after hasReader past).registry.get? path = some old → entry.birth = old.birth
  counted : ((after hasReader past).registry.entryFor path).generation +
    ((after hasReader past).heeded hasReader path burst).length ≤ entry.generation
  /-- What older tasks do meanwhile apart, the entry is the one before with every notification
  applied to it, in their order. -/
  applied : (Never hasReader (after hasReader past).view (eventsOf burst) fun state event =>
      ∃ job, Wakes state event job ∧ job.path = path) →
    entry.anonymous = ((after hasReader past).heeded hasReader path burst).foldl
      (fun entry told => told.heed entry)
      ((after hasReader past).registry.entryFor path).anonymous
  begins : ∃ begun ∈ (after hasReader (past ++ burst ++ [.event (.fire task.id)])).tasks,
    begun.cancelled = false ∧ begun.id = task.id ∧ begun.path = path ∧
      ∃ now, (after hasReader (past ++ burst ++ [.event (.fire task.id)])).registry.get? path =
          some now ∧
        now.birth = entry.birth ∧ now.generation = entry.generation ∧ begun.toJob.Begins now
  /-- If it reads first, then what it builds is not older. -/
  serves : ∀ later, (∀ event ∈ eventsOf later, ¬ Removes path event) →
    Serves (after hasReader (past ++ burst ++ .event (.fire task.id) :: later)).view path task.id
      entry.birth entry.generation

/-- A burst comes down to one task. -/
structure Collapses (hasReader : Bool) (path : String) (past burst : List Occurrence)
    (task : Task) : Prop where
  waits : (after hasReader (past ++ burst)).waiting path = [task]
  own : (after hasReader past).issued ≤ task.id
  /-- Whatever comes later, of the tasks armed so far no other fires, and this one not twice. -/
  atMostOnce : ∀ later,
    ((after hasReader (past ++ burst)).firings hasReader path later).filter
        (· < (after hasReader (past ++ burst)).issued) = [] ∨
      ((after hasReader (past ++ burst)).firings hasReader path later).filter
        (· < (after hasReader (past ++ burst)).issued) = [task.id]
  /-- With nothing more notified it waits until its delay ends, and no other task fires unless a
  reader breaks down. -/
  once : ∀ later, (∀ event ∈ eventsOf later, ¬ Cancels path event) →
    (after hasReader (past ++ burst)).heeded hasReader path later = [] →
    ((after hasReader (past ++ burst)).firings hasReader path later = [] ∧
      (after hasReader (past ++ burst ++ later)).waiting path = [task]) ∨
    ∃ others, (after hasReader (past ++ burst)).firings hasReader path later = task.id :: others ∧
      (Never hasReader (after hasReader (past ++ burst)).view (eventsOf later) (Breaks · path ·) →
        others = [] ∧ (after hasReader (past ++ burst ++ later)).waiting path = [])
  /-- Until a delay ends, the task that waits then has the whole burst before it. -/
  sees : ∀ recent, (∀ event ∈ eventsOf recent, ¬ Removes path event) →
    (after hasReader (past ++ burst)).firings hasReader path recent = [] →
    ∃ last entry, (after hasReader (past ++ (burst ++ recent))).waiting path = [last] ∧
      ((after hasReader (past ++ burst)).heeded hasReader path recent = [] → last = task) ∧
      Sees hasReader path past (burst ++ recent) last entry

theorem oneDelayed_view (hasReader : Bool) (occurrences : List Occurrence) (path : String) :
    (after hasReader occurrences).view.OneDelayed path := by
  rw [view_after]
  exact oneDelayed_after hasReader _ path

variable {past burst : List Occurrence}

theorem Burst.sees {job : Job} (bursts : Burst hasReader path past burst)
    (waits : (after hasReader (past ++ burst)).waiting path = [job.armed]) :
    ∃ entry, Sees hasReader path past burst job.armed entry := by
  have exact := exact_after hasReader past
  have valid := valid_view hasReader (past ++ burst)
  have heeded : (after hasReader past).view.heeded hasReader path (eventsOf burst) ≠ [] :=
    heeded_eq exact burst ▸ bursts.heeded
  have unclosed := unclosed_of_heeded heeded bursts.kept
  have here := view_after_append hasReader past burst
  obtain ⟨entry, known, same, counted⟩ := burst_known hasReader heeded bursts.kept
  rw [← heeded_eq exact] at counted
  rw [← here] at known
  have waits := (waiting_eq_singleton (exact_after hasReader _)).mp waits
  have begins := begins_of_fire hasReader valid waits known
  have fired := view_after_append hasReader (past ++ burst) [.event (.fire job.id)]
  refine ⟨entry, known, same, counted, fun alone => ?_, ?_, fun later kept => ?_⟩
  · rw [heeded_eq exact]
    refine Eq.trans ?_ (entryFor_run hasReader unclosed bursts.kept alone)
    rw [← here, Registry.entryFor_of_get? known]
  · obtain ⟨begun, member, number, own, now, known', begins⟩ := begins
    have found : (after hasReader (past ++ burst ++ [.event (.fire job.id)])).view.registry.get?
        path = some now := by
      rw [fired]
      exact known'
    have member :
        begun ∈ (after hasReader (past ++ burst ++ [.event (.fire job.id)])).view.jobs := by
      rw [fired]
      exact member
    obtain ⟨task, isTask, live, rfl⟩ := mem_view.mp member
    exact ⟨task, isTask, live, number, own, now, found, begins⟩
  · obtain ⟨begun, member, number, own, now, known', birth, generation, begins⟩ := begins
    have valid' := valid_step hasReader (.fire job.id) valid
    have serves : Serves ((after hasReader (past ++ burst)).view.step hasReader (.fire job.id)) path
        job.id entry.birth entry.generation := by
      rw [← number, ← birth, ← generation]
      rw [← number] at member known'
      rw [← own] at known' ⊢
      exact serves_of_begins (number ▸ valid'.numbered) member known' begins
    have there :
        (after hasReader (past ++ burst ++ .event (.fire job.armed.id) :: later)).view = _ :=
      view_after_append hasReader (past ++ burst) _
    rw [there]
    exact serves_run hasReader valid' kept serves

theorem Burst.append {recent : List Occurrence} (bursts : Burst hasReader path past burst)
    (kept : ∀ event ∈ eventsOf recent, ¬ Removes path event)
    (unfired : (after hasReader (past ++ burst)).firings hasReader path recent = []) :
    Burst hasReader path past (burst ++ recent) := by
  have exact := exact_after hasReader past
  have here := view_after_append hasReader past burst
  refine ⟨?_, ?_, fun event isEvent => ?_⟩
  · rw [heeded_eq exact, eventsOf_append, heeded_append, ← heeded_eq exact]
    exact List.append_ne_nil_of_left_ne_nil bursts.heeded _
  · rw [firings_eq exact, eventsOf_append, firings_append, ← firings_eq exact, bursts.unfired,
      ← here, ← firings_eq (exact_after hasReader _), unfired]
    rfl
  · rw [eventsOf_append] at isEvent
    exact (List.mem_append.mp isEvent).elim (bursts.kept event) (kept event)

theorem Burst.collapses (bursts : Burst hasReader path past burst) :
    ∃ task, Collapses hasReader path past burst task := by
  have exact := exact_after hasReader past
  have exact' := exact_after hasReader (past ++ burst)
  have valid := valid_view hasReader (past ++ burst)
  have here := view_after_append hasReader past burst
  have heeded : (after hasReader past).view.heeded hasReader path (eventsOf burst) ≠ [] :=
    heeded_eq exact burst ▸ bursts.heeded
  have unfired : (after hasReader past).view.firings hasReader path (eventsOf burst) = [] :=
    firings_eq exact burst ▸ bursts.unfired
  have kept : ∀ event ∈ eventsOf burst, ¬ Cancels path event :=
    fun event isLater cancels => bursts.kept event isLater (.inr cancels)
  have unclosed : (after hasReader (past ++ burst)).view.closed = false := by
    rw [here, closed_run hasReader fun close => kept _ close (.inr rfl)]
    exact unclosed_of_heeded heeded bursts.kept
  obtain ⟨job, waits, own⟩ :=
    burst_armed hasReader (valid_view hasReader past) heeded unfired kept
  rw [← here] at waits
  refine ⟨job.armed, (waiting_eq_singleton exact').mpr waits, own, fun later => ?_,
    fun later kept quiet => ?_, fun recent kept unfired => ?_⟩
  · rw [firings_eq exact']
    rcases firings_of_old hasReader valid (oneDelayed_view hasReader _ path) (eventsOf later) with
      none | ⟨only, delayed, fired⟩
    · exact .inl none
    · obtain rfl := List.singleton_inj.mp (waits.symm.trans delayed)
      exact .inr fired
  · have later' := exact_after hasReader (past ++ burst ++ later)
    rw [heeded_eq exact'] at quiet
    have fires := fires_once hasReader valid unclosed waits quiet kept
    rw [firings_eq exact', waiting_eq_singleton later', waiting_eq later', List.map_eq_nil_iff,
      view_after_append hasReader (past ++ burst) later]
    exact fires
  · have later' := exact_after hasReader (past ++ (burst ++ recent))
    obtain ⟨last, waits', _, same⟩ := armed_run hasReader valid waits
      (firings_eq exact' recent ▸ unfired)
      fun event isRecent cancels => kept event isRecent (.inr cancels)
    rw [← view_after_append, List.append_assoc] at waits'
    have waits' := (waiting_eq_singleton later').mpr waits'
    obtain ⟨entry, sees⟩ := (bursts.append kept unfired).sees waits'
    refine ⟨last.armed, entry, waits', fun quiet => ?_, sees⟩
    rw [same (heeded_eq exact' recent ▸ quiet)]

end Scheduler

end Update

end Inlay
