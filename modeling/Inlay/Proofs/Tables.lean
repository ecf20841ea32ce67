import Inlay.Update.Scheduler
import Inlay.Proofs.Registry

/-!
What the tables of the scheduler know.

The table of timers has exactly the tasks that are delayed, and the table of rebuilds exactly those
that read or build, of all that were not told to end (`Exact`). So what is found in the tables is
what there is, and to give up what the tables have is to give up all. A task that was told to end
holds on to a set that no table has any more.
-/

namespace Inlay.Update

/-! ## Tables -/

namespace Table

variable (table : Table) (path other : String) (number : Nat)

theorem get?_cons (key : String) (value : Nat) :
    get? ((key, value) :: table) other = if key = other then some value else table.get? other := by
  by_cases same : key = other <;> simp [get?, same]

theorem get?_put :
    (table.put path number).get? other =
      if path = other then some number else table.get? other := by
  induction table with
  | nil => exact get?_cons [] other path number
  | cons first rest ih =>
    obtain ⟨key, old⟩ := first
    rw [put]
    by_cases here : key = path
    · subst here
      rw [if_pos rfl, get?_cons, get?_cons]
      by_cases same : key = other <;> simp [same]
    · rw [if_neg here, get?_cons, get?_cons, ih]
      by_cases same : key = other
      · subst same
        simp [Ne.symm here]
      · simp [same]

theorem get?_erase :
    (table.erase path).get? other = if path = other then none else table.get? other := by
  unfold erase get?
  rw [List.find?_filter]
  by_cases same : path = other
  · subst same
    simp
  · rw [if_neg same]
    congr 2
    funext item
    by_cases found : item.1 = other
    · simp [found, Ne.symm same]
    · simp [found]

variable {table path number}

theorem mem_numbers (found : table.get? path = some number) : number ∈ table.numbers := by
  obtain ⟨item, isItem, rfl⟩ := Option.map_eq_some_iff.mp found
  exact List.mem_map_of_mem (List.mem_of_find?_eq_some isItem)

end Table

namespace Scheduler

variable {scheduler : Scheduler} {task : Task} {id : Nat} {path : String}

/-! ## Tasks and jobs -/

theorem mem_view {job : Job} :
    job ∈ scheduler.view.jobs ↔
      ∃ task ∈ scheduler.tasks, task.cancelled = false ∧ task.toJob = job := by
  simp [view, and_assoc]

/-- Tasks are told apart by their numbers. -/
structure Numbered (scheduler : Scheduler) : Prop where
  unique : (scheduler.tasks.map (·.id)).Nodup
  issued : ∀ task ∈ scheduler.tasks, task.id < scheduler.issued

theorem task?_id (found : scheduler.task? id = some task) : task.id = id := by
  simpa using List.find?_some found

theorem Numbered.task? (numbered : Numbered scheduler) (member : task ∈ scheduler.tasks) :
    scheduler.task? task.id = some task :=
  find?_of_nodup numbered.unique member

theorem Numbered.eq_of_id (numbered : Numbered scheduler) {other : Task}
    (member : task ∈ scheduler.tasks) (isOther : other ∈ scheduler.tasks)
    (same : task.id = other.id) : task = other := by
  have found := numbered.task? member
  rw [same, numbered.task? isOther] at found
  exact (Option.some.inj found).symm

theorem live?_eq_some (numbered : Numbered scheduler) :
    scheduler.live? id = some task ↔
      task ∈ scheduler.tasks ∧ task.id = id ∧ task.cancelled = false := by
  constructor
  · intro found
    obtain ⟨found, live⟩ := Option.filter_eq_some_iff.mp found
    exact ⟨List.mem_of_find?_eq_some found, task?_id found, by simpa using live⟩
  · rintro ⟨member, rfl, live⟩
    exact Option.filter_eq_some_iff.mpr ⟨numbered.task? member, by simp [live]⟩

/-- A job of the view is a task that was not told to end. -/
theorem job?_view (numbered : Numbered scheduler) (id : Nat) :
    scheduler.view.job? id = (scheduler.live? id).map (·.toJob) := by
  have unique : (scheduler.view.jobs.map (·.id)).Nodup := by
    have sub : (scheduler.view.jobs.map (·.id)).Sublist (scheduler.tasks.map (·.id)) := by
      simp only [view, List.map_map]
      exact List.filter_sublist.map _
    exact numbered.unique.sublist sub
  cases found : scheduler.live? id with
  | some task =>
    obtain ⟨member, rfl, live⟩ := (live?_eq_some numbered).mp found
    exact find?_of_nodup unique (mem_view.mpr ⟨task, member, live, rfl⟩)
  | none =>
    refine List.find?_eq_none.mpr fun job isJob => ?_
    obtain ⟨task, member, live, rfl⟩ := mem_view.mp isJob
    simp only [decide_eq_true_eq]
    rintro rfl
    simp [(live?_eq_some numbered).mpr ⟨member, rfl, live⟩] at found

/-! ## What the steps leave of the view -/

theorem tell_jobs (scheduler : Scheduler) (ids : List Nat) :
    (scheduler.tell ids).view.jobs = scheduler.view.jobs.filter (·.id ∉ ids) := by
  simp only [view, tell]
  induction scheduler.tasks with
  | nil => rfl
  | cons task tasks ih =>
    by_cases told : task.id ∈ ids <;> cases cancelled : task.cancelled <;>
      simp [told, cancelled, ih]

/-- A task that is done leaves everything as it was, apart from its set. -/
theorem finish_eq (scheduler : Scheduler) (id : Nat) :
    scheduler.finish id =
      { scheduler with
        tasks := scheduler.tasks.filter (·.id ≠ id)
        rebuilds := (scheduler.finish id).rebuilds
        sets := (scheduler.finish id).sets } := by
  unfold finish
  split
  · simp only [leaveSet]
    split <;> rfl
  · rfl

theorem view_finish (scheduler : Scheduler) (id : Nat) :
    (scheduler.finish id).view = scheduler.view.drop id := by
  rw [finish_eq]
  simp only [view, State.drop, List.filter_filter, List.filter_map]
  congr 2
  refine List.filter_congr fun task _ => ?_
  simp [Bool.and_comm]

theorem view_setStage (scheduler : Scheduler) (id : Nat) (stage : Stage) :
    (scheduler.setStage id stage).view = scheduler.view.setStage id stage := by
  simp only [view, setStage, State.setStage]
  congr 1
  induction scheduler.tasks with
  | nil => rfl
  | cons task tasks ih =>
    by_cases own : task.id = id <;> cases cancelled : task.cancelled <;> simp [own, cancelled, ih]

/-! ## Exact tables -/

/-- A task that has begun to rebuild holds on to a set. It is the one that the table has for its
path, unless the task was told to end; then no table has it. -/
inductive Holds (scheduler : Scheduler) (task : Task) : Prop
  | nothing (running : task.running = none) (delayed : task.stage = .delayed)
  | set {number : Nat} (running : task.running = some number) (begun : task.stage ≠ .delayed)
      (made : number < scheduler.sets.length)
      (own : ∀ path, scheduler.rebuilds.get? path = some number ↔
        task.cancelled = false ∧ path = task.path)

/-- The tables have exactly the tasks that were not told to end. -/
structure Exact (scheduler : Scheduler) : Prop where
  numbered : Numbered scheduler
  timers : ∀ path id, scheduler.timers.get? path = some id ↔
    (⟨id, path, .delayed⟩ : Job) ∈ scheduler.view.jobs
  rebuilds : ∀ path id, id ∈ scheduler.rebuildsOf path ↔
    ∃ stage, stage ≠ .delayed ∧ (⟨id, path, stage⟩ : Job) ∈ scheduler.view.jobs
  /-- The table has no empty sets. -/
  made : ∀ path number, scheduler.rebuilds.get? path = some number →
    number < scheduler.sets.length ∧ scheduler.members number ≠ []
  holds : ∀ task ∈ scheduler.tasks, scheduler.Holds task

theorem exact_initial : Exact .initial := by
  refine ⟨⟨?_, ?_⟩, ?_, ?_, ?_, ?_⟩ <;> simp [initial, view, Table.get?, rebuildsOf]

theorem Numbered.eq_of_mem_view (numbered : Numbered scheduler) {job other : Job}
    (member : job ∈ scheduler.view.jobs) (isOther : other ∈ scheduler.view.jobs)
    (same : job.id = other.id) : job = other := by
  obtain ⟨task, isTask, _, rfl⟩ := mem_view.mp member
  obtain ⟨task', isTask', _, rfl⟩ := mem_view.mp isOther
  rw [numbered.eq_of_id isTask isTask' same]

/-- A job is the timer of a path exactly if it is a delayed job of the path. -/
theorem Exact.timer_iff (exact : Exact scheduler) (path : String) {job : Job}
    (member : job ∈ scheduler.view.jobs) :
    scheduler.timers.get? path = some job.id ↔ job.path = path ∧ job.stage = .delayed := by
  rw [exact.timers]
  constructor
  · intro timer
    rw [exact.numbered.eq_of_mem_view member timer rfl]
    exact ⟨rfl, rfl⟩
  · rintro ⟨rfl, delayed⟩
    rw [← delayed]
    exact member

/-- A job is a rebuild of a path in the table exactly if it is one that reads or builds. -/
theorem Exact.rebuild_iff (exact : Exact scheduler) (path : String) {job : Job}
    (member : job ∈ scheduler.view.jobs) :
    job.id ∈ scheduler.rebuildsOf path ↔ job.path = path ∧ job.stage ≠ .delayed := by
  rw [exact.rebuilds]
  constructor
  · rintro ⟨stage, begun, isJob⟩
    rw [exact.numbered.eq_of_mem_view member isJob rfl]
    exact ⟨rfl, begun⟩
  · rintro ⟨rfl, begun⟩
    exact ⟨job.stage, begun, member⟩

/-- What the tables have of a path are its jobs. -/
theorem Exact.work_iff (exact : Exact scheduler) (path : String) {job : Job}
    (member : job ∈ scheduler.view.jobs) : job.id ∈ scheduler.workOf path ↔ job.path = path := by
  rw [workOf, List.mem_append, Option.mem_toList, exact.timer_iff path member,
    exact.rebuild_iff path member]
  by_cases delayed : job.stage = .delayed <;> simp [delayed]

theorem mem_known_of_timer (timer : scheduler.timers.get? path = some id) :
    id ∈ scheduler.known :=
  List.mem_append_left _ (Table.mem_numbers timer)

theorem mem_known_of_rebuild (rebuild : id ∈ scheduler.rebuildsOf path) : id ∈ scheduler.known := by
  unfold rebuildsOf at rebuild
  cases found : scheduler.rebuilds.get? path with
  | none => simp [found] at rebuild
  | some number =>
    rw [found] at rebuild
    exact List.mem_append_right _ (List.mem_flatMap.mpr ⟨number, Table.mem_numbers found, rebuild⟩)

/-- The tables have every task that was not told to end. -/
theorem Exact.mem_known (exact : Exact scheduler) {job : Job}
    (member : job ∈ scheduler.view.jobs) : job.id ∈ scheduler.known := by
  by_cases delayed : job.stage = .delayed
  · exact mem_known_of_timer ((exact.timer_iff _ member).mpr ⟨rfl, delayed⟩)
  · exact mem_known_of_rebuild ((exact.rebuild_iff _ member).mpr ⟨rfl, delayed⟩)

/-! ## Steps of the tables are steps of the jobs -/

theorem view_schedule (exact : Exact scheduler) (path : String) :
    (scheduler.schedule path).view = scheduler.view.schedule path := by
  have others : scheduler.view.jobs.filter (·.id ∉ (scheduler.timers.get? path).toList) =
      scheduler.view.jobs.filter fun job => !(job.path == path && job.isDelayed) := by
    refine List.filter_congr fun job member => ?_
    have timer := exact.timer_iff path member
    rw [← Option.mem_toList] at timer
    rw [Bool.eq_iff_iff]
    simp [timer, Job.isDelayed]
  unfold schedule State.schedule
  by_cases closed : scheduler.closed = true
  · have closed' : scheduler.view.closed = true := closed
    rw [if_pos closed, if_pos closed']
  · have closed' : ¬ scheduler.view.closed = true := closed
    rw [if_neg closed, if_neg closed', ← others, ← tell_jobs]
    simp [view, tell]

theorem view_cancel (exact : Exact scheduler) (path : String) :
    (scheduler.cancel path).view = scheduler.view.cancel path := by
  have others : scheduler.view.jobs.filter (·.id ∉ scheduler.workOf path) =
      scheduler.view.jobs.filter (·.path ≠ path) :=
    List.filter_congr fun job member => by simp [exact.work_iff path member]
  rw [State.cancel, ← others, ← tell_jobs]
  rfl

theorem view_close (exact : Exact scheduler) : scheduler.close.view = scheduler.view.close := by
  have none : scheduler.view.jobs.filter (·.id ∉ scheduler.known) = [] := by
    refine List.filter_eq_nil_iff.mpr fun job member => ?_
    simp [exact.mem_known member]
  rw [State.close, ← none, ← tell_jobs]
  rfl

theorem isArmed_view (exact : Exact scheduler) (path : String) :
    scheduler.view.isArmed path = scheduler.isArmed path := by
  rw [Bool.eq_iff_iff]
  constructor
  · intro armed
    obtain ⟨job, member, own⟩ := List.any_eq_true.mp armed
    have own : job.path = path ∧ job.stage = .delayed := by simpa [Job.isDelayed] using own
    obtain ⟨task, isTask, _, rfl⟩ := mem_view.mp member
    simp [isArmed, (exact.timer_iff path member).mpr own, exact.numbered.task? isTask]
  · intro armed
    cases timer : scheduler.timers.get? path with
    | none => simp [isArmed, timer] at armed
    | some id =>
      exact List.any_eq_true.mpr ⟨_, (exact.timers path id).mp timer, by simp [Job.isDelayed]⟩

/-- Another task is pending exactly if one is left when the task is done. -/
theorem isPending_iff (exact : Exact scheduler) (id : Nat) (path : String) :
    scheduler.isPending id path = true ↔
      scheduler.isArmed path = true ∨ 0 < (scheduler.view.drop id).rebuilding path := by
  have others : (scheduler.rebuildsOf path).any (· ≠ id) = true ↔
      0 < (scheduler.view.drop id).rebuilding path := by
    rw [State.rebuilding, List.length_filter_pos_iff, List.any_eq_true]
    constructor
    · rintro ⟨other, rebuild, different⟩
      obtain ⟨stage, begun, member⟩ := (exact.rebuilds path other).mp rebuild
      have kept : (⟨other, path, stage⟩ : Job) ∈ (scheduler.view.drop id).jobs :=
        List.mem_filter.mpr ⟨member, different⟩
      exact ⟨_, kept, by simp [Job.isDelayed, begun]⟩
    · rintro ⟨job, kept, own⟩
      obtain ⟨member, different⟩ := List.mem_filter.mp kept
      have own : job.path = path ∧ job.stage ≠ .delayed := by simpa [Job.isDelayed] using own
      exact ⟨job.id, (exact.rebuild_iff path member).mpr own, different⟩
  rw [isPending, Bool.or_eq_true, others]

/-! ## The tables stay exact -/

theorem Numbered.map (numbered : Numbered scheduler) (change : Task → Task)
    (keeps : ∀ task, (change task).id = task.id) :
    Numbered { scheduler with tasks := scheduler.tasks.map change } := by
  constructor
  · have same : (scheduler.tasks.map change).map (·.id) = scheduler.tasks.map (·.id) := by
      rw [List.map_map]
      exact List.map_congr_left fun task _ => keeps task
    rw [same]
    exact numbered.unique
  · intro task member
    obtain ⟨old, isOld, rfl⟩ := List.mem_map.mp member
    rw [keeps]
    exact numbered.issued old isOld

theorem numbered_tell (numbered : Numbered scheduler) (ids : List Nat) :
    Numbered (scheduler.tell ids) :=
  numbered.map _ fun task => by split <;> rfl

/-- A task that is told to end was not told before, or nothing changes. -/
theorem mem_tell {ids : List Nat} (member : task ∈ (scheduler.tell ids).tasks) :
    ∃ old ∈ scheduler.tasks, (task = old ∧ (old.cancelled = false → old.id ∉ ids)) ∨
      task = { old with cancelled := true } ∧ old.cancelled = false ∧ old.id ∈ ids := by
  obtain ⟨old, isOld, rfl⟩ := List.mem_map.mp member
  refine ⟨old, isOld, ?_⟩
  by_cases told : old.id ∈ ids
  · rw [if_pos told]
    cases live : old.cancelled with
    | true =>
      refine .inl ⟨?_, by simp⟩
      rw [← live]
    | false => exact .inr ⟨rfl, rfl, told⟩
  · rw [if_neg told]
    exact .inl ⟨rfl, fun _ => told⟩

theorem Holds.of_same {next : Scheduler} (holds : Holds scheduler task)
    (sets : scheduler.sets.length ≤ next.sets.length)
    (rebuilds : ∀ number, task.running = some number → ∀ path,
      next.rebuilds.get? path = some number ↔ scheduler.rebuilds.get? path = some number) :
    Holds next task := by
  cases holds with
  | nothing running delayed => exact .nothing running delayed
  | set running begun made own =>
    exact .set running begun (Nat.lt_of_lt_of_le made sets) fun path =>
      (rebuilds _ running path).trans (own path)

/-- A delayed task holds on to nothing, so that it may be told to end. -/
theorem Holds.cancel_timer {next : Scheduler} (holds : Holds scheduler task)
    (delayed : task.stage = .delayed) : Holds next { task with cancelled := true } := by
  cases holds with
  | nothing running _ => exact .nothing running delayed
  | set _ begun _ _ => exact absurd delayed begun

theorem mem_schedule (exact : Exact scheduler) (unclosed : scheduler.closed = false) {job : Job} :
    job ∈ (scheduler.schedule path).view.jobs ↔
      (job ∈ scheduler.view.jobs ∧ ¬ (job.path = path ∧ job.stage = .delayed)) ∨
        job = ⟨scheduler.issued, path, .delayed⟩ := by
  have unclosed' : ¬ scheduler.view.closed = true := by simp [view, unclosed]
  rw [view_schedule exact, State.schedule, if_neg unclosed', List.mem_append, List.mem_filter,
    List.mem_singleton, Bool.not_eq_true', ← Bool.not_eq_true, Bool.and_eq_true, beq_iff_eq,
    Job.isDelayed, beq_iff_eq]
  rfl

theorem numbered_schedule (numbered : Numbered scheduler) (path : String) :
    Numbered (scheduler.schedule path) := by
  have told := numbered_tell numbered (scheduler.timers.get? path).toList
  unfold schedule
  split
  · exact numbered
  · constructor
    · simp only [List.map_append, List.map_cons, List.map_nil]
      refine List.nodup_append.mpr ⟨told.unique, by simp, ?_⟩
      intro id old new isNew
      obtain ⟨task, isTask, rfl⟩ := List.mem_map.mp old
      rw [List.mem_singleton.mp isNew]
      exact Nat.ne_of_lt (told.issued task isTask)
    · intro task member
      rcases List.mem_append.mp member with old | new
      · exact Nat.lt_succ_of_lt (told.issued task old)
      · rw [List.mem_singleton.mp new]
        exact Nat.lt_succ_self _

theorem exact_schedule (exact : Exact scheduler) (path : String) :
    Exact (scheduler.schedule path) := by
  cases closed : scheduler.closed with
  | true => rwa [schedule, if_pos closed]
  | false =>
    have jobs := @mem_schedule scheduler path exact closed
    have numbered := numbered_schedule exact.numbered path
    have unclosed : ¬ scheduler.closed = true := by simp [closed]
    rw [schedule, if_neg unclosed] at jobs numbered ⊢
    refine ⟨numbered, fun other id => ?_, fun other id => ?_, exact.made, fun task member => ?_⟩
    · rw [jobs, Table.get?_put]
      by_cases same : path = other
      · simp [same, eq_comm]
      · simp [same, Ne.symm same, exact.timers]
    · refine (exact.rebuilds other id).trans (exists_congr fun stage => and_congr_right ?_)
      intro begun
      simp [jobs, begun]
    · rcases List.mem_append.mp member with told | new
      · obtain ⟨old, isOld, ⟨rfl, _⟩ | ⟨rfl, live, timer⟩⟩ := mem_tell told
        · exact (exact.holds _ isOld).of_same (Nat.le_refl _) fun _ _ _ => Iff.rfl
        · have isJob := mem_view.mpr ⟨old, isOld, live, rfl⟩
          have delayed := (exact.timer_iff path isJob).mp (Option.mem_toList.mp timer)
          exact (exact.holds old isOld).cancel_timer delayed.2
      · rw [List.mem_singleton.mp new]
        exact .nothing rfl rfl

/-- Work is given up by whole paths. -/
theorem exact_giveUp (exact : Exact scheduler) (given : String → Prop) {ids : List Nat}
    {timers rebuilds : Table}
    (told : ∀ job ∈ scheduler.view.jobs, job.id ∈ ids ↔ given job.path)
    (gone : ∀ path, given path → timers.get? path = none ∧ rebuilds.get? path = none)
    (kept : ∀ path, ¬ given path → timers.get? path = scheduler.timers.get? path ∧
      rebuilds.get? path = scheduler.rebuilds.get? path) :
    Exact { scheduler.tell ids with timers, rebuilds } := by
  have numbered := numbered_tell exact.numbered ids
  have jobs : ∀ job, job ∈ (scheduler.tell ids).view.jobs ↔
      job ∈ scheduler.view.jobs ∧ ¬ given job.path := by
    intro job
    rw [tell_jobs, List.mem_filter, decide_eq_true_eq]
    exact and_congr_right fun member => not_congr (told job member)
  refine ⟨⟨numbered.unique, numbered.issued⟩, fun path id => ?_, fun path id => ?_,
    fun path number found => ?_, fun task member => ?_⟩
  · refine Iff.trans ?_ (jobs _).symm
    by_cases away : given path
    · simp [gone path away, away]
    · simp [kept path away, away, exact.timers]
  · have later : (∃ stage, stage ≠ .delayed ∧ (⟨id, path, stage⟩ : Job) ∈
        (scheduler.tell ids).view.jobs) ↔ id ∈ scheduler.rebuildsOf path ∧ ¬ given path := by
      simp only [jobs, exact.rebuilds, ← and_assoc, exists_and_right]
    refine Iff.trans ?_ later.symm
    by_cases away : given path
    · simp [rebuildsOf, gone path away, away]
    · rw [and_iff_left away, rebuildsOf, rebuildsOf, (kept path away).2]
      rfl
  · by_cases away : given path
    · simp [gone path away] at found
    · rw [(kept path away).2] at found
      exact exact.made path number found
  · have less : ∀ path number, rebuilds.get? path = some number ↔
        scheduler.rebuilds.get? path = some number ∧ ¬ given path := by
      intro path number
      by_cases away : given path
      · simp [gone path away, away]
      · simp [kept path away, away]
    obtain ⟨old, isOld, ⟨rfl, stays⟩ | ⟨rfl, live, isTold⟩⟩ := mem_tell member
    · cases exact.holds _ isOld with
      | nothing running delayed => exact .nothing running delayed
      | set running begun made own =>
        refine .set running begun made fun path => ?_
        rw [less, own]
        refine ⟨And.left, fun mine => ⟨mine, ?_⟩⟩
        obtain ⟨live, rfl⟩ := mine
        rw [← told _ (mem_view.mpr ⟨_, isOld, live, rfl⟩)]
        exact stays live
    · have away := (told _ (mem_view.mpr ⟨old, isOld, live, rfl⟩)).mp isTold
      cases exact.holds old isOld with
      | nothing running delayed => exact .nothing running delayed
      | set running begun made own =>
        refine .set running begun made fun path => ?_
        rw [less, own]
        constructor
        · rintro ⟨⟨_, rfl⟩, stays⟩
          exact absurd away stays
        · rintro ⟨cancelled, _⟩
          simp at cancelled

theorem exact_cancel (exact : Exact scheduler) (path : String) :
    Exact (scheduler.cancel path) := by
  refine exact_giveUp exact (· = path) (fun job => exact.work_iff path) ?_ ?_
  · rintro _ rfl
    simp [Table.get?_erase]
  · intro other different
    simp [Table.get?_erase, Ne.symm different]

/-- What the registry holds, and whether the service is closed, is nothing to the tables. -/
theorem Exact.elsewhere (exact : Exact scheduler) (registry : Registry) (closed : Bool) :
    Exact { scheduler with registry, closed } :=
  ⟨⟨exact.numbered.unique, exact.numbered.issued⟩, exact.timers, exact.rebuilds, exact.made,
    fun task member => (exact.holds task member).of_same (Nat.le_refl _) fun _ _ _ => Iff.rfl⟩

theorem exact_close (exact : Exact scheduler) : Exact scheduler.close := by
  have empty : ∀ path, Table.get? [] path = none := fun _ => rfl
  have given : Exact { scheduler.tell scheduler.known with timers := [], rebuilds := [] } :=
    exact_giveUp exact (fun _ => True) (fun job member => iff_true_intro (exact.mem_known member))
      (by simp [empty]) (by simp)
  exact given.elsewhere _ true

/-! ### Sets of rebuilds -/

theorem members_modify (scheduler : Scheduler) {number : Nat} (change : List Nat → List Nat)
    (made : number < scheduler.sets.length) (other : Nat) :
    ({ scheduler with sets := scheduler.sets.modify number change }).members other =
      if number = other then change (scheduler.members number) else scheduler.members other := by
  unfold members
  simp only [List.getD_eq_getElem?_getD, List.getElem?_modify]
  by_cases same : number = other
  · subst same
    simp [made]
  · simp [same]

/-- What a task leaves of the tables when it leaves its set. -/
theorem leaveSet_tables (scheduler : Scheduler) (id : Nat) (path : String) {number : Nat}
    (made : number < scheduler.sets.length) :
    (∀ other, (scheduler.leaveSet id path number).members other =
      if number = other then (scheduler.members number).filter (· ≠ id)
      else scheduler.members other) ∧
    ∀ other, (scheduler.leaveSet id path number).rebuilds.get? other =
      if path = other ∧ scheduler.rebuilds.get? path = some number ∧
        (scheduler.members number).filter (· ≠ id) = [] then none
      else scheduler.rebuilds.get? other := by
  have left := members_modify scheduler (·.filter (· ≠ id)) made
  have own := left number
  rw [if_pos rfl] at own
  simp only [leaveSet, own]
  split
  · next gone =>
    simp only [List.isEmpty_iff, Bool.and_eq_true, decide_eq_true_eq] at gone
    refine ⟨left, fun other => ?_⟩
    simp only [Table.get?_erase, gone, and_true]
  · next stays =>
    simp only [List.isEmpty_iff, Bool.and_eq_true, decide_eq_true_eq] at stays
    refine ⟨left, fun other => ?_⟩
    rw [if_neg fun gone => stays ⟨gone.2.2, gone.2.1⟩]

theorem numbered_finish (numbered : Numbered scheduler) (id : Nat) :
    Numbered (scheduler.finish id) := by
  rw [finish_eq]
  refine ⟨numbered.unique.sublist (List.filter_sublist.map _), fun task member => ?_⟩
  exact numbered.issued task (List.mem_filter.mp member).1

/-- A task that the table has among the rebuilds of a path holds on to the set of the path. -/
theorem Exact.holds_of_rebuild (exact : Exact scheduler) (member : task ∈ scheduler.tasks)
    (rebuild : task.id ∈ scheduler.rebuildsOf path) :
    task.cancelled = false ∧ task.path = path ∧ task.stage ≠ .delayed := by
  obtain ⟨stage, begun, isJob⟩ := (exact.rebuilds path task.id).mp rebuild
  obtain ⟨other, isOther, live, same⟩ := mem_view.mp isJob
  obtain rfl := exact.numbered.eq_of_id member isOther (congrArg Job.id same).symm
  exact ⟨live, congrArg Job.path same, congrArg Job.stage same ▸ begun⟩

theorem rebuildsOf_eq {number : Nat} (found : scheduler.rebuilds.get? path = some number) :
    scheduler.rebuildsOf path = scheduler.members number := by
  simp [rebuildsOf, found]

theorem finish_tables {number : Nat} (found : scheduler.task? id = some task)
    (running : task.running = some number) (made : number < scheduler.sets.length) :
    (∀ other, (scheduler.finish id).members other =
      if number = other then (scheduler.members number).filter (· ≠ id)
      else scheduler.members other) ∧
    ∀ other, (scheduler.finish id).rebuilds.get? other =
      if task.path = other ∧ scheduler.rebuilds.get? task.path = some number ∧
        (scheduler.members number).filter (· ≠ id) = [] then none
      else scheduler.rebuilds.get? other := by
  obtain ⟨⟨_, path, stage⟩, _, cancelled⟩ := task
  obtain rfl : _ = some number := running
  simp only [finish, found]
  exact leaveSet_tables { scheduler with tasks := _ } id path made

/-- A task that is done leaves alone what the table has for a path without it. -/
theorem finish_untouched (exact : Exact scheduler) (member : task ∈ scheduler.tasks)
    (absent : task.id ∉ scheduler.rebuildsOf path) :
    (scheduler.finish task.id).rebuilds.get? path = scheduler.rebuilds.get? path ∧
      (scheduler.finish task.id).rebuildsOf path = scheduler.rebuildsOf path := by
  have found := exact.numbered.task? member
  cases exact.holds task member with
  | nothing running delayed =>
    obtain ⟨job, _, cancelled⟩ := task
    obtain rfl : _ = none := running
    have idle : scheduler.finish job.id =
        { scheduler with tasks := scheduler.tasks.filter (·.id ≠ job.id) } := by
      simp only [finish, found]
    rw [idle]
    exact ⟨rfl, rfl⟩
  | @set number running begun made own =>
    have elsewhere : scheduler.rebuilds.get? path ≠ some number := by
      intro isSet
      obtain ⟨live, rfl⟩ := (own path).mp isSet
      exact absent ((exact.rebuild_iff _ (mem_view.mpr ⟨task, member, live, rfl⟩)).mpr ⟨rfl, begun⟩)
    obtain ⟨members, rebuilds⟩ := finish_tables found running made
    have same : (scheduler.finish task.id).rebuilds.get? path = scheduler.rebuilds.get? path := by
      rw [rebuilds, if_neg]
      rintro ⟨rfl, isSet, _⟩
      exact elsewhere isSet
    refine ⟨same, ?_⟩
    rw [rebuildsOf, same]
    cases isSet : scheduler.rebuilds.get? path with
    | none => simp [rebuildsOf, isSet]
    | some other =>
      have different : number ≠ other := by
        rintro rfl
        exact elsewhere isSet
      rw [rebuildsOf_eq isSet]
      exact (members other).trans (if_neg different)

/-- A rebuild that is done leaves its path in the table exactly if there are other rebuilds. -/
theorem finish_own (exact : Exact scheduler) (member : task ∈ scheduler.tasks)
    (rebuild : task.id ∈ scheduler.rebuildsOf path) :
    (scheduler.finish task.id).rebuildsOf path =
        (scheduler.rebuildsOf path).filter (· ≠ task.id) ∧
      ∀ number, (scheduler.finish task.id).rebuilds.get? path = some number ↔
        scheduler.rebuilds.get? path = some number ∧
          (scheduler.rebuildsOf path).filter (· ≠ task.id) ≠ [] := by
  obtain ⟨live, rfl, begun⟩ := exact.holds_of_rebuild member rebuild
  cases exact.holds task member with
  | nothing _ delayed => exact absurd delayed begun
  | @set number running _ made own =>
    have isSet := (own task.path).mpr ⟨live, rfl⟩
    obtain ⟨members, rebuilds⟩ := finish_tables (exact.numbered.task? member) running made
    have now := rebuilds task.path
    rw [rebuildsOf_eq isSet]
    by_cases empty : (scheduler.members number).filter (· ≠ task.id) = []
    · rw [if_pos ⟨rfl, isSet, empty⟩] at now
      simp only [rebuildsOf, now, empty]
      simp
    · rw [if_neg fun gone => empty gone.2.2, isSet] at now
      refine ⟨(rebuildsOf_eq now).trans ((members number).trans (if_pos rfl)), fun other => ?_⟩
      rw [now, isSet, and_iff_left empty]

/-- A task that is done is no longer among the rebuilds of any path, and a path without rebuilds is
no longer in the table. -/
theorem finish_rebuilds (exact : Exact scheduler) (member : task ∈ scheduler.tasks)
    (path : String) :
    (scheduler.finish task.id).rebuildsOf path =
        (scheduler.rebuildsOf path).filter (· ≠ task.id) ∧
      ∀ number, (scheduler.finish task.id).rebuilds.get? path = some number ↔
        scheduler.rebuilds.get? path = some number ∧
          (scheduler.rebuildsOf path).filter (· ≠ task.id) ≠ [] := by
  by_cases rebuild : task.id ∈ scheduler.rebuildsOf path
  · exact finish_own exact member rebuild
  · obtain ⟨sameSet, same⟩ := finish_untouched exact member rebuild
    have whole : (scheduler.rebuildsOf path).filter (· ≠ task.id) = scheduler.rebuildsOf path := by
      refine List.filter_eq_self.mpr fun other isOther => ?_
      rw [decide_eq_true_eq]
      rintro rfl
      exact rebuild isOther
    rw [whole, sameSet]
    refine ⟨same, fun number => (and_iff_left_of_imp fun isSet => ?_).symm⟩
    rw [rebuildsOf_eq isSet]
    exact (exact.made path number isSet).2

theorem finish_sets (scheduler : Scheduler) (id : Nat) :
    (scheduler.finish id).sets.length = scheduler.sets.length := by
  unfold finish
  split
  · simp only [leaveSet]
    split <;> simp
  · rfl

theorem exact_finish (exact : Exact scheduler) (member : task ∈ scheduler.tasks)
    (ends : task.cancelled = true ∨ task.stage ≠ .delayed) : Exact (scheduler.finish task.id) := by
  have jobs : ∀ job, job ∈ (scheduler.finish task.id).view.jobs ↔
      job ∈ scheduler.view.jobs ∧ job.id ≠ task.id := by
    intro job
    rw [view_finish, State.drop, List.mem_filter, decide_eq_true_eq]
  have timers : (scheduler.finish task.id).timers = scheduler.timers := by rw [finish_eq]
  refine ⟨numbered_finish exact.numbered _, fun path id => ?_, fun path id => ?_,
    fun path number found => ?_, fun other isOther => ?_⟩
  · rw [timers, exact.timers, jobs]
    refine (and_iff_left_of_imp ?_).symm
    rintro isJob rfl
    obtain ⟨other, isOther, live, same⟩ := mem_view.mp isJob
    obtain rfl := exact.numbered.eq_of_id member isOther (congrArg Job.id same).symm
    rcases ends with cancelled | begun
    · simp [live] at cancelled
    · exact begun (congrArg Job.stage same)
  · rw [(finish_rebuilds exact member path).1, List.mem_filter, exact.rebuilds]
    simp only [jobs, decide_eq_true_eq, ← and_assoc, exists_and_right]
  · obtain ⟨isSet, full⟩ := ((finish_rebuilds exact member path).2 number).mp found
    rw [finish_sets, ← rebuildsOf_eq found, (finish_rebuilds exact member path).1]
    exact ⟨(exact.made path number isSet).1, full⟩
  · rw [finish_eq, List.mem_filter, decide_eq_true_eq] at isOther
    obtain ⟨isOther, different⟩ := isOther
    cases exact.holds other isOther with
    | nothing running delayed => exact .nothing running delayed
    | @set number running begun made own =>
      refine .set running begun (by rwa [finish_sets]) fun path => ?_
      rw [(finish_rebuilds exact member path).2, own]
      refine and_iff_left_of_imp ?_
      rintro ⟨live, rfl⟩
      have rebuild := (exact.rebuild_iff other.path
        (mem_view.mpr ⟨other, isOther, live, rfl⟩)).mpr ⟨rfl, begun⟩
      exact List.ne_nil_of_mem (List.mem_filter.mpr ⟨rebuild, by simpa using different⟩)

theorem mem_setStage {state : State} {stage : Stage} {job : Job} :
    job ∈ (state.setStage id stage).jobs ↔
      job ∈ state.jobs ∧ job.id ≠ id ∨
        job.id = id ∧ job.stage = stage ∧
          ∃ old ∈ state.jobs, old.id = id ∧ old.path = job.path := by
  rw [State.setStage, List.mem_map]
  constructor
  · rintro ⟨old, isOld, rfl⟩
    by_cases own : old.id = id
    · rw [if_pos own]
      exact .inr ⟨own, rfl, old, isOld, own, rfl⟩
    · rw [if_neg own]
      exact .inl ⟨isOld, own⟩
  · rintro (⟨isOld, other⟩ | ⟨rfl, rfl, old, isOld, own, path⟩)
    · exact ⟨job, isOld, if_neg other⟩
    · refine ⟨old, isOld, ?_⟩
      rw [if_pos own, path, own]

theorem exact_setStage (exact : Exact scheduler) (member : task ∈ scheduler.tasks)
    (working : task.stage ≠ .delayed) {stage : Stage} (begun : stage ≠ .delayed) :
    Exact (scheduler.setStage task.id stage) := by
  have working' : ∀ job ∈ scheduler.view.jobs, job.id = task.id → job.stage ≠ .delayed := by
    intro job isJob same
    obtain ⟨other, isOther, _, rfl⟩ := mem_view.mp isJob
    rwa [exact.numbered.eq_of_id isOther member same]
  have numbered : Numbered (scheduler.setStage task.id stage) :=
    exact.numbered.map _ fun task => by split <;> rfl
  refine ⟨numbered, fun path id => ?_, fun path id => ?_, exact.made, fun other isOther => ?_⟩
  · rw [view_setStage, mem_setStage]
    refine (exact.timers path id).trans ⟨fun isJob => .inl ⟨isJob, fun same => ?_⟩, ?_⟩
    · exact working' _ isJob same rfl
    · rintro (⟨isJob, _⟩ | ⟨_, rfl, _⟩)
      · exact isJob
      · exact absurd rfl begun
  · simp only [view_setStage, mem_setStage]
    refine (exact.rebuilds path id).trans ⟨?_, ?_⟩
    · rintro ⟨old, notDelayed, isJob⟩
      by_cases same : id = task.id
      · exact ⟨stage, begun, .inr ⟨same, rfl, _, isJob, same, rfl⟩⟩
      · exact ⟨old, notDelayed, .inl ⟨isJob, same⟩⟩
    · rintro ⟨now, notDelayed, ⟨isJob, _⟩ | ⟨rfl, _, old, isJob, same, rfl⟩⟩
      · exact ⟨now, notDelayed, isJob⟩
      · refine ⟨old.stage, working' old isJob same, ?_⟩
        rw [← same]
        exact isJob
  · obtain ⟨old, isOld, rfl⟩ := List.mem_map.mp isOther
    have held : Holds (scheduler.setStage task.id stage) old :=
      (exact.holds old isOld).of_same (Nat.le_refl _) fun _ _ _ => Iff.rfl
    by_cases own : old.id = task.id
    · rw [if_pos own]
      obtain rfl := exact.numbered.eq_of_id isOld member own
      cases held with
      | nothing _ delayed => exact absurd delayed working
      | set running _ made own => exact .set running begun made own
    · rw [if_neg own]
      exact held

/-! ### From timer to rebuild -/

/-- No two paths have one set. -/
theorem Exact.apart (exact : Exact scheduler) {other : String} {number : Nat}
    (found : scheduler.rebuilds.get? path = some number)
    (found' : scheduler.rebuilds.get? other = some number) : path = other := by
  obtain ⟨id, member⟩ := List.exists_mem_of_ne_nil _ (exact.made path number found).2
  have mine : id ∈ scheduler.rebuildsOf path := by rwa [rebuildsOf_eq found]
  have yours : id ∈ scheduler.rebuildsOf other := by rwa [rebuildsOf_eq found']
  obtain ⟨_, _, isJob⟩ := (exact.rebuilds path id).mp mine
  obtain ⟨_, _, isJob'⟩ := (exact.rebuilds other id).mp yours
  exact congrArg Job.path (exact.numbered.eq_of_mem_view isJob isJob' rfl)

/-- A path has a set of rebuilds, one that it had before or a new one. -/
structure Ensured (scheduler next : Scheduler) (path : String) (number : Nat) : Prop where
  made : number < next.sets.length
  grown : scheduler.sets.length ≤ next.sets.length
  members : ∀ other, next.members other =
    if number = other then scheduler.rebuildsOf path else scheduler.members other
  rebuilds : ∀ other, next.rebuilds.get? other =
    if path = other then some number else scheduler.rebuilds.get? other
  own : ∀ other, scheduler.rebuilds.get? other = some number → path = other
  /-- No other set has changed its place. -/
  others : ∀ old < scheduler.sets.length, ∀ other,
    next.rebuilds.get? other = some old ↔ scheduler.rebuilds.get? other = some old

theorem exists_ensured (exact : Exact scheduler) (path : String) (timers : Table) :
    ∃ rebuilds sets number,
      { scheduler with timers }.ensureSet path =
        ({ scheduler with timers, rebuilds, sets }, number) ∧
      Ensured scheduler { scheduler with rebuilds, sets } path number := by
  cases found : scheduler.rebuilds.get? path with
  | some number =>
    refine ⟨scheduler.rebuilds, scheduler.sets, number, by simp only [ensureSet, found],
      (exact.made path number found).1, Nat.le_refl _, fun other => ?_, fun other => ?_,
      fun other => exact.apart found, fun _ _ _ => Iff.rfl⟩
    · rw [rebuildsOf_eq found]
      split
      · next same => rw [same]
      · rfl
    · split
      · next same => rw [← same, found]
      · rfl
  | none =>
    have empty : scheduler.rebuildsOf path = [] := by simp [rebuildsOf, found]
    have rebuilds : ∀ other, (scheduler.rebuilds.put path scheduler.sets.length).get? other =
        if path = other then some scheduler.sets.length else scheduler.rebuilds.get? other :=
      fun other => Table.get?_put _ _ _ _
    refine ⟨_, _, _, by simp only [ensureSet, found]; rfl, by simp, by simp, fun other => ?_,
      rebuilds,
      fun other found' => ?_, fun old isOld other => ?_⟩
    · have grown : (scheduler.sets ++ [[]]).getD other [] = scheduler.members other := by
        rw [members, List.getD_eq_getElem?_getD, List.getD_eq_getElem?_getD]
        by_cases before : other < scheduler.sets.length
        · rw [List.getElem?_append_left before]
        · have beyond := Nat.le_of_not_lt before
          rw [List.getElem?_append_right beyond, List.getElem?_eq_none beyond]
          cases other - scheduler.sets.length <;> rfl
      refine grown.trans ?_
      split
      · next same =>
        rw [empty, ← same]
        simp [members]
      · rfl
    · exact absurd (exact.made other _ found').1 (Nat.lt_irrefl _)
    · rw [rebuilds]
      split
      · next same =>
        rw [← same, found]
        simp [Nat.ne_of_gt isOld]
      · rfl

theorem view_join (scheduler : Scheduler) (id number : Nat) :
    (scheduler.join id number).view = scheduler.view := by
  simp only [view, join]
  congr 1
  induction scheduler.tasks with
  | nil => rfl
  | cons task tasks ih =>
    by_cases own : task.id = id <;> cases cancelled : task.cancelled <;> simp [own, cancelled, ih]

theorem view_enter (scheduler : Scheduler) (id : Nat) (path : String) :
    (scheduler.enter id path).view = scheduler.view := by
  have ensured : ∀ scheduler : Scheduler, (scheduler.ensureSet path).1.view = scheduler.view := by
    intro scheduler
    unfold ensureSet
    split <;> rfl
  have left : (scheduler.leaveTimers id path).view = scheduler.view := by
    unfold leaveTimers
    split <;> rfl
  exact (view_join _ _ _).trans ((ensured _).trans left)

/-- A task that is put into the set of a path is one more of its rebuilds. -/
theorem Ensured.join {next : Scheduler} {number : Nat}
    (ensured : Ensured scheduler next path number) (id : Nat) (other : String) :
    (next.join id number).rebuildsOf other =
      scheduler.rebuildsOf other ++ if path = other then [id] else [] := by
  have members : ∀ set, (next.join id number).members set =
      if number = set then next.members number ++ [id] else next.members set :=
    members_modify { next with tasks := _ } (· ++ [id]) ensured.made
  have found : (next.join id number).rebuilds.get? other = _ := ensured.rebuilds other
  by_cases same : path = other
  · rw [if_pos same] at found ⊢
    rw [rebuildsOf_eq found, members, if_pos rfl, ensured.members, if_pos rfl, same]
  · rw [if_neg same] at found ⊢
    rw [List.append_nil, rebuildsOf, found]
    cases isSet : scheduler.rebuilds.get? other with
    | none => simp [rebuildsOf, isSet]
    | some set =>
      have different : number ≠ set := by
        rintro rfl
        exact same (ensured.own other isSet)
      rw [rebuildsOf_eq isSet, Option.elim_some, members, if_neg different, ensured.members,
        if_neg different]

/-- A timer has left its table and joined the set of its path. -/
structure Entered (scheduler next : Scheduler) (id : Nat) (path : String) (number : Nat) :
    Prop where
  tasks : next.tasks = scheduler.tasks.map fun task =>
    if task.id = id then { task with running := some number } else task
  issued : next.issued = scheduler.issued
  timers : ∀ other, next.timers.get? other =
    if path = other then none else scheduler.timers.get? other
  rebuildsOf : ∀ other, next.rebuildsOf other =
    scheduler.rebuildsOf other ++ if path = other then [id] else []
  made : number < next.sets.length
  grown : scheduler.sets.length ≤ next.sets.length
  own : ∀ other, next.rebuilds.get? other = some number ↔ path = other
  others : ∀ old < scheduler.sets.length, ∀ other,
    next.rebuilds.get? other = some old ↔ scheduler.rebuilds.get? other = some old
  few : ∀ other set, next.rebuilds.get? other = some set →
    set = number ∨ set < scheduler.sets.length

theorem exists_entered (exact : Exact scheduler)
    (timer : scheduler.timers.get? path = some id) :
    ∃ number, Entered scheduler (scheduler.enter id path) id path number := by
  have leaves : scheduler.leaveTimers id path =
      { scheduler with timers := scheduler.timers.erase path } := if_pos timer
  obtain ⟨rebuilds, sets, number, isSet, ensured⟩ :=
    exists_ensured exact path (scheduler.timers.erase path)
  have size : (sets.modify number (· ++ [id])).length = sets.length := List.length_modify _ _ _
  refine ⟨number, ?_⟩
  simp only [enter, leaves, isSet]
  refine ⟨rfl, rfl, Table.get?_erase _ path, ensured.join id,
    Nat.lt_of_lt_of_eq ensured.made size.symm,
    Nat.le_trans ensured.grown (Nat.le_of_eq size.symm), fun other => ?_, ensured.others,
    fun other set found => ?_⟩
  · have found : rebuilds.get? other = _ := ensured.rebuilds other
    constructor
    · intro mine
      by_contra different
      have mine : rebuilds.get? other = some number := mine
      rw [found, if_neg different] at mine
      exact different (ensured.own other mine)
    · rintro rfl
      exact found.trans (if_pos rfl)
  · have looked : rebuilds.get? other = _ := ensured.rebuilds other
    have found : rebuilds.get? other = some set := found
    rw [looked] at found
    split at found
    · exact .inl (Option.some.inj found).symm
    · exact .inr (exact.made other set found).1

theorem mem_begin (exact : Exact scheduler)
    (timer : (⟨id, path, .delayed⟩ : Job) ∈ scheduler.view.jobs) {stage : Stage} {job : Job} :
    job ∈ ((scheduler.enter id path).setStage id stage).view.jobs ↔
      job ∈ scheduler.view.jobs ∧ job.id ≠ id ∨ job = ⟨id, path, stage⟩ := by
  rw [view_setStage, view_enter, mem_setStage]
  refine or_congr_right ⟨?_, ?_⟩
  · rintro ⟨rfl, rfl, old, isOld, same, path'⟩
    obtain rfl := exact.numbered.eq_of_mem_view isOld timer same
    obtain rfl : path = job.path := path'
    rfl
  · rintro rfl
    exact ⟨rfl, rfl, _, timer, rfl, rfl⟩

section

variable {next : Scheduler} {number : Nat}

theorem Entered.numbered (entered : Entered scheduler next id path number)
    (numbered : Numbered scheduler) : Numbered next := by
  have mapped := numbered.map
    (fun task => if task.id = id then { task with running := some number } else task)
    fun task => by split <;> rfl
  constructor
  · rw [entered.tasks]
    exact mapped.unique
  · rw [entered.tasks, entered.issued]
    exact mapped.issued

theorem Entered.filled (entered : Entered scheduler next id path number) (exact : Exact scheduler)
    {other : String} {set : Nat} (found : next.rebuilds.get? other = some set) :
    set < next.sets.length ∧ next.members set ≠ [] := by
  have members : next.members set = next.rebuildsOf other := (rebuildsOf_eq found).symm
  rw [members, entered.rebuildsOf]
  rcases entered.few other set found with rfl | old
  · exact ⟨entered.made, by simp [(entered.own other).mp found]⟩
  · have isSet := (entered.others set old other).mp found
    rw [rebuildsOf_eq isSet]
    exact ⟨Nat.lt_of_lt_of_le old entered.grown,
      List.append_ne_nil_of_left_ne_nil (exact.made other set isSet).2 _⟩

theorem Entered.holds (entered : Entered scheduler next id path number) (exact : Exact scheduler)
    (timer : (⟨id, path, .delayed⟩ : Job) ∈ scheduler.view.jobs) {stage : Stage}
    (begun : stage ≠ .delayed) (member : task ∈ (next.setStage id stage).tasks) :
    (next.setStage id stage).Holds task := by
  obtain ⟨joined, isJoined, rfl⟩ := List.mem_map.mp member
  rw [entered.tasks] at isJoined
  obtain ⟨old, isOld, rfl⟩ := List.mem_map.mp isJoined
  by_cases mine : old.id = id
  · obtain ⟨task, isTask, live, same⟩ := mem_view.mp timer
    obtain rfl := exact.numbered.eq_of_id isOld isTask (mine.trans (congrArg Job.id same).symm)
    have isPath : old.path = path := congrArg Job.path same
    rw [if_pos mine, if_pos mine]
    refine .set rfl begun entered.made fun other => (entered.own other).trans ?_
    simp [live, isPath, eq_comm]
  · rw [if_neg mine, if_neg mine]
    cases exact.holds old isOld with
    | nothing running delayed => exact .nothing running delayed
    | @set number running begun made held =>
      exact .set running begun (Nat.lt_of_lt_of_le made entered.grown) fun path =>
        (entered.others number made path).trans (held path)

end

/-- A timer whose delay is over becomes a rebuild in the tables too. -/
theorem exact_begin (exact : Exact scheduler)
    (timer : (⟨id, path, .delayed⟩ : Job) ∈ scheduler.view.jobs) {stage : Stage}
    (begun : stage ≠ .delayed) : Exact ((scheduler.enter id path).setStage id stage) := by
  have jobs := fun job => @mem_begin _ _ _ exact timer stage job
  have own : ∀ job ∈ scheduler.view.jobs, job.id = id → job = ⟨id, path, .delayed⟩ :=
    fun job isJob same => exact.numbered.eq_of_mem_view isJob timer same
  obtain ⟨number, entered⟩ := exists_entered exact ((exact.timers path id).mpr timer)
  generalize scheduler.enter id path = next at jobs entered ⊢
  refine ⟨(entered.numbered exact.numbered).map _ fun task => by split <;> rfl,
    fun other mine => ?_, fun other mine => ?_, fun other set => entered.filled exact,
    fun task => entered.holds exact timer begun⟩
  · have looked : next.timers.get? other = some mine ↔
        path ≠ other ∧ scheduler.timers.get? other = some mine := by
      rw [entered.timers]
      by_cases same : path = other <;> simp [same]
    rw [jobs]
    refine looked.trans ⟨?_, ?_⟩
    · rintro ⟨different, isTimer⟩
      have isJob := (exact.timers other mine).mp isTimer
      exact .inl ⟨isJob, fun same => different (congrArg Job.path (own _ isJob same)).symm⟩
    · rintro (⟨isJob, notMine⟩ | same)
      · have isTimer := (exact.timers other mine).mpr isJob
        refine ⟨?_, isTimer⟩
        rintro rfl
        rw [(exact.timers path id).mpr timer] at isTimer
        exact notMine (Option.some.inj isTimer).symm
      · exact absurd (congrArg Job.stage same).symm begun
  · simp only [jobs]
    refine (iff_of_eq (congrArg (mine ∈ ·) (entered.rebuildsOf other))).trans ?_
    rw [List.mem_append, exact.rebuilds]
    constructor
    · rintro (⟨now, working, isJob⟩ | new)
      · exact ⟨now, working,
          .inl ⟨isJob, fun same => working (congrArg Job.stage (own _ isJob same))⟩⟩
      · split at new
        · next same =>
          rw [List.mem_singleton.mp new, ← same]
          exact ⟨stage, begun, .inr rfl⟩
        · simp at new
    · rintro ⟨now, working, ⟨isJob, _⟩ | same⟩
      · exact .inl ⟨now, working, isJob⟩
      · obtain ⟨rfl, rfl, rfl⟩ := Job.mk.inj same
        simp

end Scheduler

end Inlay.Update
