import Inlay.Proofs.Invariant
import Inlay.Proofs.Scheduler

/-!
What was given up does not come back.

The jobs of a path are dropped when it is deleted, and all jobs when the service is closed. Numbers
of jobs are never given out twice, so that a dropped job stays away even when its path is registered
again. Whatever happens to an entry or is done for it is the work of a job that is there, or of a
notification about it.

Behind a dropped job there is a task that still has to end. The tables know of every task that
works, so that none is missed when work is given up, and when such a task ends, the tables may
already have the timer and the rebuilds of the path's next entry: these are left alone.
-/

namespace Inlay.Update

open State

/-- The path for which something is done. -/
def Effect.path : Effect → String
  | read path | build path _ _ | changed path => path

/-- The job for which an event is meant. -/
def Event.job? : Event → Option Nat
  | fire id | read id _ | build id _ => some id
  | _ => none

section

variable {hasReader : Bool} {state next : State} {path : String} {event : Event}

/-! ## Who does what -/

theorem Wakes.own {job : Job} (wakes : Wakes state event job) : event.job? = some job.id := by
  cases wakes <;> rfl

theorem step_of_absent {id : Nat} (absent : state.job? id = none) (own : event.job? = some id) :
    state.step hasReader event = state ∧ state.effects hasReader event = [] := by
  cases event with
  | fire _ | read _ _ | build _ _ =>
    obtain rfl := Option.some.inj own
    simp [step, effects, absent]
  | notice _ | forget _ | close => simp [Event.job?] at own

theorem startBuild_effect {id : Nat} {effect : Effect}
    (member : effect ∈ (state.startBuild id path).2) : effect.path = path := by
  unfold startBuild at member
  split at member
  · simp at member
  · obtain rfl := List.mem_singleton.mp member
    rfl

theorem fire_effect {id : Nat} {effect : Effect}
    (member : effect ∈ (state.fire hasReader id path).2) : effect.path = path := by
  unfold State.fire at member
  split at member
  · simp at member
  · split at member
    · exact startBuild_effect member
    · split at member
      · obtain rfl := List.mem_singleton.mp member
        rfl
      · exact startBuild_effect member

theorem finishRead_effect {id birth generation : Nat} {result : Except ReadFailure String}
    {effect : Effect} (member : effect ∈ (state.finishRead id path birth generation result).2) :
    effect.path = path := by
  unfold finishRead at member
  split at member
  · simp at member
  · simp at member
  · split at member <;> exact startBuild_effect member
  · split at member
    · exact startBuild_effect member
    · split at member <;> simp at member

theorem finishBuild_effect {id birth generation : Nat} {result : Option Built} {effect : Effect}
    (member : effect ∈ (state.finishBuild id path birth generation result).2) :
    effect.path = path := by
  simp only [finishBuild] at member
  split at member
  · simp at member
  · split at member <;> simp at member
  · split at member
    · split at member
      · obtain rfl := List.mem_singleton.mp member
        rfl
      · simp at member
    · split at member <;> simp at member

/-- Something is done only by the job that an event wakes, and for the path of the job. -/
theorem effect_of_job {effect : Effect} (member : effect ∈ state.effects hasReader event) :
    ∃ job, Wakes state event job ∧ job.path = effect.path := by
  cases event with
  | notice _ | forget _ | close => simp [effects] at member
  | fire id =>
    simp only [effects] at member
    split at member
    · next path found =>
      obtain rfl := job?_id found
      exact ⟨_, .fire found, (fire_effect member).symm⟩
    · simp at member
  | read id result =>
    simp only [effects] at member
    split at member
    · next path birth generation found =>
      obtain rfl := job?_id found
      exact ⟨_, .read found, (finishRead_effect member).symm⟩
    · simp at member
  | build id result =>
    simp only [effects] at member
    split at member
    · next path birth generation text found =>
      obtain rfl := job?_id found
      exact ⟨_, .build found, (finishBuild_effect member).symm⟩
    · simp at member

theorem changed_by_notice {notice : Notice} {change : Entry → Entry}
    (keeps : ∀ entry, (change entry).path = entry.path)
    (changed : ((state.registry.ensure notice.path).modify notice.path change).get? path ≠
      state.registry.get? path) : notice.path = path := by
  rw [Registry.get?_ensure_modify _ _ _ keeps] at changed
  split at changed
  · next same => exact same.symm
  · exact absurd rfl changed

theorem changed_by_job {job : Job} {change : Entry → Entry}
    (keeps : ∀ entry, (change entry).path = entry.path)
    (changed : (state.registry.modify job.path change).get? path ≠ state.registry.get? path) :
    job.path = path := by
  rw [Registry.get?_modify _ _ _ keeps] at changed
  split at changed
  · next same => exact same.symm
  · exact absurd rfl changed

theorem changed_by_removal {other : String}
    (changed : (state.registry.remove other).get? path ≠ state.registry.get? path) :
    other = path := by
  rw [Registry.get?_remove] at changed
  split at changed
  · next same => exact same.symm
  · exact absurd rfl changed

/-- Only a notification about a path, a job of the path, or whoever takes it out of the registry
changes its entry. -/
theorem changed_by (step : Step hasReader state event next)
    (changed : next.registry.get? path ≠ state.registry.get? path) :
    (∃ notice, event = .notice notice ∧ notice.path = path) ∨ event = .forget path ∨
      ∃ job, Wakes state event job ∧ job.path = path := by
  cases step with
  | ignored _ | closed | dropped _ _ | reading _ _ _ _ | building _ _ _ => exact absurd rfl changed
  | opened _ | changed _ | wanted _ _ =>
    rw [schedule_registry] at changed
    exact .inl ⟨_, rfl, changed_by_notice (by intro; rfl) changed⟩
  | edited _ =>
    rw [schedule_registry] at changed
    exact .inl ⟨_, rfl, changed_by_notice (by simp) changed⟩
  | deleted _ => exact .inl ⟨_, rfl, changed_by_removal changed⟩
  | forgotten => exact .inr (.inl (congrArg Event.forget (changed_by_removal changed)))
  | loaded wakes _ => exact .inr (.inr ⟨_, wakes, changed_by_job (by simp) changed⟩)
  | unread wakes _ _ | failed wakes _ =>
    exact .inr (.inr ⟨_, wakes, changed_by_job (by intro; rfl) changed⟩)
  | accepted wakes _ => exact .inr (.inr ⟨_, wakes, changed_by_job (by simp) changed⟩)
  | rearmed _ _ _ _ _ =>
    rw [schedule_registry] at changed
    exact absurd rfl changed

/-! ## Numbers of jobs -/

/-- A job keeps its number and its path, and a new one gets a new number. -/
theorem number_of_step {job : Job} (step : Step hasReader state event next)
    (numbered : Numbered state) (member : job ∈ next.jobs) :
    (∃ old ∈ state.jobs, old.id = job.id ∧ old.path = job.path) ∨ job.id = state.issued := by
  cases arises_of_step step numbered member with
  | kept old => exact .inl ⟨job, old, rfl, rfl⟩
  | armed => exact .inr rfl
  | reads _ wakes _ _ | builds wakes _ _ =>
    exact .inl ⟨_, List.mem_of_find?_eq_some wakes.job?, rfl, rfl⟩

theorem issued_of_step (step : Step hasReader state event next) : state.issued ≤ next.issued := by
  cases step with
  | opened _ | edited _ | changed _ | wanted _ _ | rearmed _ _ _ _ _ =>
    unfold schedule
    split
    · exact Nat.le_refl _
    · exact Nat.le_succ _
  | ignored _ | deleted _ | forgotten | closed | dropped _ _ | reading _ _ _ _ | building _ _ _
  | loaded _ _ | unread _ _ _ | failed _ _ | accepted _ _ => exact Nat.le_refl _

/-- Of a kind of jobs there are only such as were armed after a number was reached. -/
def Since (bound : Nat) (kind : Nat → String → Prop) (state : State) : Prop :=
  bound ≤ state.issued ∧ ∀ job ∈ state.jobs, kind job.id job.path → bound ≤ job.id

theorem since_run {bound : Nat} {kind : Nat → String → Prop} {events : List Event}
    (valid : Valid state) (since : Since bound kind state) :
    Since bound kind (state.run hasReader events) := by
  induction events generalizing state with
  | nil => exact since
  | cons event events ih =>
    have step := step_spec hasReader state event
    refine ih (valid_step hasReader event valid) ⟨Nat.le_trans since.1 (issued_of_step step), ?_⟩
    intro job member among
    rcases number_of_step step valid.numbered member with ⟨old, known, same, path⟩ | new
    · rw [← same]
      rw [← same, ← path] at among
      exact since.2 old known among
    · rw [new]
      exact since.1

/-! ## After a deletion -/

theorem deleted_registered (hasReader : Bool) {entry : Entry}
    (known : state.registry.get? path = some entry) :
    state.step hasReader (.notice (.deleted path)) =
      { state with registry := state.registry.remove path }.cancel path := by
  have present : state.registry.contains path = true := by simp [Registry.contains, known]
  simp only [step, State.notify, if_pos present]

theorem since_deleted {entry : Entry} {kind : Nat → String → Prop} {events : List Event}
    (valid : Valid state) (known : state.registry.get? path = some entry)
    (dropped : ∀ job ∈ state.jobs, kind job.id job.path → job.path = path) :
    Since state.issued kind (state.run hasReader (.notice (.deleted path) :: events)) := by
  have gone : Since state.issued kind (state.step hasReader (.notice (.deleted path))) := by
    rw [deleted_registered hasReader known]
    refine ⟨Nat.le_refl _, ?_⟩
    intro job member among
    obtain ⟨old, kept⟩ := List.mem_filter.mp member
    exact absurd (dropped job old among) (by simpa using kept)
  have later : Since state.issued kind
      ((state.step hasReader (.notice (.deleted path))).run hasReader events) :=
    since_run (valid_step hasReader _ valid) gone
  exact later

/-- A number that was given out, and that after a deletion is no job's, is never a job's again. -/
theorem job?_deleted {entry : Entry} {id : Nat} {events : List Event} (valid : Valid state)
    (known : state.registry.get? path = some entry) (issued : id < state.issued)
    (dropped : ∀ job ∈ state.jobs, job.id = id → job.path = path) :
    (state.run hasReader (.notice (.deleted path) :: events)).job? id = none := by
  have since : Since state.issued (fun number _ => number = id)
      (state.run hasReader (.notice (.deleted path) :: events)) :=
    since_deleted valid known dropped
  cases found : (state.run hasReader (.notice (.deleted path) :: events)).job? id with
  | none => rfl
  | some later =>
    have reissued := since.2 later (List.mem_of_find?_eq_some found) (job?_id found)
    rw [job?_id found] at reissued
    omega

/-! ## After the end -/

/-- The service is closed, and nothing is left to do. -/
structure Shut (state : State) : Prop where
  closed : state.closed = true
  idle : state.jobs = []

theorem Shut.unwoken {job : Job} (shut : Shut state) : ¬ Wakes state event job := by
  intro wakes
  have member := List.mem_of_find?_eq_some wakes.job?
  simp [shut.idle] at member

/-- A closed service arms nothing, so that it stays as it is and gives out no numbers. -/
theorem Shut.step (shut : Shut state) :
    Shut (state.step hasReader event) ∧ (state.step hasReader event).issued = state.issued := by
  have arms : ∀ (armed : State) path, armed.closed = true → armed.jobs = [] →
      Shut (armed.schedule path) ∧ (armed.schedule path).issued = armed.issued := by
    intro armed path closed idle
    rw [State.schedule, if_pos closed]
    exact ⟨⟨closed, idle⟩, rfl⟩
  have spec := step_spec hasReader state event
  generalize state.step hasReader event = next at spec
  cases spec with
  | ignored _ => exact ⟨shut, rfl⟩
  | opened _ | edited _ | changed _ | wanted _ _ => exact arms _ _ shut.closed shut.idle
  | deleted _ => exact ⟨⟨shut.closed, by simp [State.cancel, shut.idle]⟩, rfl⟩
  | forgotten => exact ⟨⟨shut.closed, shut.idle⟩, rfl⟩
  | closed => exact ⟨⟨rfl, rfl⟩, rfl⟩
  | dropped wakes _ | reading _ wakes _ _ | building wakes _ _ | loaded wakes _ | unread wakes _ _
  | failed wakes _ | accepted wakes _ | rearmed wakes _ _ _ _ => exact absurd wakes shut.unwoken

theorem Shut.run {events : List Event} (shut : Shut state) :
    Shut (state.run hasReader events) ∧ (state.run hasReader events).issued = state.issued := by
  induction events generalizing state with
  | nil => exact ⟨shut, rfl⟩
  | cons event events ih =>
    obtain ⟨stays, given⟩ := ih shut.step.1
    exact ⟨stays, given.trans shut.step.2⟩

/-- Nothing is done for a closed service, and only a notification or a removal changes its
entries. -/
theorem Shut.silent (shut : Shut state) :
    state.effects hasReader event = [] ∧
      ((∀ notice, event ≠ .notice notice) → (∀ path, event ≠ .forget path) →
        state.step hasReader event = state) := by
  constructor
  · rw [List.eq_nil_iff_forall_not_mem]
    intro effect member
    obtain ⟨job, wakes, _⟩ := effect_of_job member
    exact shut.unwoken wakes
  · intro unnoticed unforgotten
    have spec := step_spec hasReader state event
    generalize state.step hasReader event = next at spec
    cases spec with
    | ignored _ => rfl
    | opened _ | edited _ | changed _ | wanted _ _ | deleted _ => exact absurd rfl (unnoticed _)
    | forgotten => exact absurd rfl (unforgotten _)
    | closed =>
      obtain ⟨closed, idle⟩ := shut
      cases state
      simp_all [close]
    | dropped wakes _ | reading _ wakes _ _ | building wakes _ _ | loaded wakes _ | unread wakes _ _
    | failed wakes _ | accepted wakes _ | rearmed wakes _ _ _ _ => exact absurd wakes shut.unwoken

end

/-! ## Tasks that were told to end -/

/-- The task for which an occurrence is meant. -/
def Occurrence.task? : Occurrence → Option Nat
  | event told => told.job?
  | ending id => some id

namespace Scheduler

variable {hasReader : Bool} {scheduler : Scheduler} {task : Task} {id : Nat} {path : String}

theorem valid_view (hasReader : Bool) (occurrences : List Occurrence) :
    Valid (after hasReader occurrences).view := by
  rw [view_after]
  exact valid_after hasReader _

/-- A task that has no job in the view was told to end, if it is not done. -/
theorem cancelled_of_absent (exact : Exact scheduler) (absent : scheduler.view.job? id = none)
    (member : task ∈ scheduler.tasks) (own : task.id = id) : task.cancelled = true := by
  cases cancelled : task.cancelled with
  | true => rfl
  | false =>
    have live := (live?_eq_some exact.numbered).mpr ⟨member, own, cancelled⟩
    simp [job?_view exact.numbered, live] at absent

/-- The tables do not have such a task. -/
theorem unknown_of_absent (exact : Exact scheduler) (absent : scheduler.view.job? id = none)
    (path : String) : id ∉ scheduler.workOf path := by
  have none : ∀ job ∈ scheduler.view.jobs, job.id ≠ id := by
    simpa [State.job?] using absent
  rw [workOf, List.mem_append, Option.mem_toList, exact.timers, exact.rebuilds]
  rintro (timer | ⟨stage, _, rebuild⟩)
  · exact none _ timer rfl
  · exact none _ rebuild rfl

theorem respond_of_absent {event : Event} (exact : Exact scheduler)
    (absent : scheduler.view.job? id = none) (own : event.job? = some id) :
    scheduler.respond hasReader (.event event) = (scheduler, []) := by
  have dead : scheduler.live? id = none := by
    simpa [job?_view exact.numbered] using absent
  cases event with
  | fire _ | read _ _ | build _ _ =>
    obtain rfl := Option.some.inj own
    simp only [respond, dead]
  | notice _ | forget _ | close => simp [Event.job?] at own

/-- What two schedulers have alike when one task less is left to end. -/
structure Alike (scheduler next : Scheduler) : Prop where
  registry : next.registry = scheduler.registry
  timers : next.timers = scheduler.timers
  rebuilds : ∀ path, next.rebuilds.get? path = scheduler.rebuilds.get? path
  members : ∀ path, next.rebuildsOf path = scheduler.rebuildsOf path
  view : next.view = scheduler.view

/-- A task that was told to end leaves the set it was put into, and this is not one that the table
has. -/
theorem alike_deliver (exact : Exact scheduler) (id : Nat) :
    Alike scheduler (scheduler.deliver id) := by
  have view := (refines_ending exact id).2
  by_cases told : ∃ task, scheduler.task? id = some task ∧ task.cancelled = true
  · obtain ⟨task, found, told⟩ := told
    have member : task ∈ scheduler.tasks := List.mem_of_find?_eq_some found
    obtain rfl := task?_id found
    have absent : ∀ path, task.id ∉ scheduler.rebuildsOf path := fun path rebuild =>
      absurd (exact.holds_of_rebuild member rebuild).1 (by simp [told])
    rw [deliver_eq_finish exact.numbered member told] at view ⊢
    have untouched := fun path => finish_untouched exact member (absent path)
    exact ⟨by rw [finish_eq], by rw [finish_eq], fun path => (untouched path).1,
      fun path => (untouched path).2, view⟩
  · rw [deliver_eq_self fun task found => by simpa using fun told' => told ⟨task, found, told'⟩]
    exact ⟨rfl, rfl, fun _ => rfl, fun _ => rfl, rfl⟩

/-- A task that was given up: if it is not done it was told to end, and the tables do not have it.
What it waited for does nothing when it comes, and its end is nothing to anyone else. -/
structure Void (hasReader : Bool) (scheduler : Scheduler) (id : Nat) : Prop where
  told : ∀ task ∈ scheduler.tasks, task.id = id → task.cancelled = true
  unknown : ∀ path, id ∉ scheduler.workOf path
  idle : ∀ event : Event, event.job? = some id →
    scheduler.respond hasReader (.event event) = (scheduler, [])
  silent : (scheduler.respond hasReader (.ending id)).2 = []
  alone : Alike scheduler (scheduler.step hasReader (.ending id))

theorem void_of_absent (exact : Exact scheduler) (absent : scheduler.view.job? id = none) :
    Void hasReader scheduler id :=
  ⟨fun _ member own => cancelled_of_absent exact absent member own, unknown_of_absent exact absent,
    fun _ own => respond_of_absent exact absent own, rfl, alike_deliver exact id⟩

/-- Only a notification about a path, a task of the path that was not told to end, or whoever takes
it out of the registry changes its entry or has something done for it. -/
theorem affected_by {occurrence : Occurrence} (exact : Exact scheduler)
    (affected : (scheduler.step hasReader occurrence).registry.get? path ≠
        scheduler.registry.get? path ∨
      ∃ effect ∈ (scheduler.respond hasReader occurrence).2, effect.path = path) :
    (∃ notice, occurrence = .event (.notice notice) ∧ notice.path = path) ∨
      occurrence = .event (.forget path) ∨
      ∃ task ∈ scheduler.tasks, occurrence.task? = some task.id ∧ task.cancelled = false ∧
        task.path = path := by
  cases occurrence with
  | ending id =>
    rcases affected with changed | ⟨effect, member, _⟩
    · exact absurd (congrArg (Registry.get? · path) (alike_deliver exact id).registry) changed
    · simp [respond] at member
  | event event =>
    have refines := refines_event exact hasReader event
    have worker : ∀ job, Wakes scheduler.view event job → job.path = path →
        ∃ task ∈ scheduler.tasks, (Occurrence.event event).task? = some task.id ∧
          task.cancelled = false ∧ task.path = path := by
      intro job wakes own
      obtain ⟨task, member, live, rfl⟩ := mem_view.mp (List.mem_of_find?_eq_some wakes.job?)
      exact ⟨task, member, wakes.own, live, own⟩
    rcases affected with changed | ⟨effect, member, about⟩
    · have same : (scheduler.view.step hasReader event).registry =
          (scheduler.step hasReader (.event event)).registry :=
        congrArg State.registry refines.view.symm
      rcases changed_by (step_spec hasReader scheduler.view event) (same ▸ changed) with
        ⟨notice, rfl, own⟩ | rfl | ⟨job, wakes, own⟩
      · exact .inl ⟨notice, rfl, own⟩
      · exact .inr (.inl rfl)
      · exact .inr (.inr (worker job wakes own))
    · rw [refines.effects] at member
      obtain ⟨job, wakes, own⟩ := effect_of_job member
      exact .inr (.inr (worker job wakes (own.trans about)))

/-- Nothing is done when the service is closed, and only a notification or a removal changes an
entry. -/
theorem silent_of_shut {hasReader : Bool} {scheduler : Scheduler} (exact : Exact scheduler)
    (shut : Shut scheduler.view) (occurrence : Occurrence) :
    (scheduler.respond hasReader occurrence).2 = [] ∧
      ((∀ notice, occurrence ≠ .event (.notice notice)) →
        (∀ path, occurrence ≠ .event (.forget path)) →
        (scheduler.step hasReader occurrence).registry = scheduler.registry) := by
  cases occurrence with
  | ending id => exact ⟨rfl, fun _ _ => (alike_deliver exact id).registry⟩
  | event event =>
    have refines := refines_event exact hasReader event
    have silent : scheduler.view.effects hasReader event = [] ∧ _ := shut.silent
    refine ⟨refines.effects.trans silent.1, fun unnoticed unforgotten => ?_⟩
    have same := silent.2 (fun notice told => unnoticed notice (congrArg _ told))
      fun path told => unforgotten path (congrArg _ told)
    exact congrArg State.registry (refines.view.trans same)

end Scheduler

/-- Work that was given up stays without effect. After a registered path was deleted, every task of
the path that was there before is void, whatever happens later, and the entry of the path is
changed, or anything done for it, only by a notification about it, by whoever takes it out of the
registry, or by a task that was created since. After the service was closed all tasks are void, no
task is created, the tables are empty, nothing is done any more, and only notifications and removals
change entries. -/
theorem given_up_work_is_void (hasReader : Bool) (past future : List Occurrence) :
    let before := Scheduler.after hasReader past
    (∀ path entry, before.registry.get? path = some entry →
      let now := Scheduler.after hasReader (past ++ .event (.notice (.deleted path)) :: future)
      (∀ task ∈ before.tasks, task.path = path → now.Void hasReader task.id) ∧
      ∀ occurrence,
        ((now.step hasReader occurrence).registry.get? path ≠ now.registry.get? path ∨
          ∃ effect ∈ (now.respond hasReader occurrence).2, effect.path = path) →
        (∃ notice, occurrence = .event (.notice notice) ∧ notice.path = path) ∨
          occurrence = .event (.forget path) ∨
          ∃ task ∈ now.tasks, occurrence.task? = some task.id ∧ task.cancelled = false ∧
            task.path = path ∧ before.issued ≤ task.id) ∧
    let now := Scheduler.after hasReader (past ++ .event .close :: future)
    (∀ task ∈ now.tasks, now.Void hasReader task.id ∧ task.id < before.issued) ∧
      (∀ path, now.workOf path = []) ∧
      ∀ occurrence, (now.respond hasReader occurrence).2 = [] ∧
        ((∀ notice, occurrence ≠ .event (.notice notice)) →
          (∀ path, occurrence ≠ .event (.forget path)) →
          (now.step hasReader occurrence).registry = now.registry) := by
  intro before
  have exact : before.Exact := Scheduler.exact_after hasReader past
  have valid : Valid before.view := Scheduler.valid_view hasReader past
  constructor
  · intro path entry known now
    have exact' : now.Exact := Scheduler.exact_after hasReader _
    have here : now.view =
        before.view.run hasReader (.notice (.deleted path) :: eventsOf future) :=
      Scheduler.view_after_append hasReader past _
    constructor
    · intro task member own
      refine Scheduler.void_of_absent exact' ?_
      rw [here]
      refine job?_deleted valid known (exact.numbered.issued task member) ?_
      intro job isJob same
      obtain ⟨other, isOther, _, rfl⟩ := Scheduler.mem_view.mp isJob
      rw [exact.numbered.eq_of_id isOther member same]
      exact own
    · intro occurrence affected
      rcases Scheduler.affected_by exact' affected with
        noticed | forgotten | ⟨task, member, woken, live, own⟩
      · exact .inl noticed
      · exact .inr (.inl forgotten)
      · have since : Since before.issued (fun _ other => other = path) now.view := by
          rw [here]
          exact since_deleted valid known fun _ _ same => same
        have later := since.2 task.toJob (Scheduler.mem_view.mpr ⟨task, member, live, rfl⟩) own
        exact .inr (.inr ⟨task, member, woken, live, own, later⟩)
  · intro now
    have exact' : now.Exact := Scheduler.exact_after hasReader _
    have here : now.view = before.view.close.run hasReader (eventsOf future) :=
      Scheduler.view_after_append hasReader past _
    obtain ⟨shut, given⟩ : Shut now.view ∧ now.view.issued = before.view.issued := by
      rw [here]
      exact Shut.run ⟨rfl, rfl⟩
    have issued : now.issued = before.issued := given
    have absent : ∀ id, now.view.job? id = none := by simp [State.job?, shut.idle]
    refine ⟨fun task member => ?_, fun path => ?_, Scheduler.silent_of_shut exact' shut⟩
    · exact ⟨Scheduler.void_of_absent exact' (absent task.id),
        issued ▸ exact'.numbered.issued task member⟩
    · exact List.eq_nil_iff_forall_not_mem.mpr fun id =>
        Scheduler.unknown_of_absent exact' (absent id) path

/-- A file is deleted while it is read, and created again. What the old read gives is not
installed, although the file is waiting for one, and when the old task ends the table keeps the
rebuild of the new one. -/
theorem deleted_read_is_void :
    let past : List Occurrence := [.event (.notice (.changed "a.ts")), .event (.fire 0)]
    let future : List Occurrence := [.event (.notice (.changed "a.ts")), .event (.fire 1)]
    let now := Scheduler.after true (past ++ .event (.notice (.deleted "a.ts")) :: future)
    now.registry.get? "a.ts" = some ⟨"a.ts", 1, "", [], 1, true, false, false, true, []⟩ ∧
      now.tasks.map (fun task => (task.id, task.cancelled)) = [(0, true), (1, false)] ∧
      now.rebuildsOf "a.ts" = [1] ∧
      now.respond true (.event (.read 0 (.ok "a"))) = (now, []) ∧
      (now.step true (.ending 0)).rebuildsOf "a.ts" = [1] := by
  intro past future now
  have void : now.Void true 0 :=
    ((given_up_work_is_void true past future).1 "a.ts"
      ⟨"a.ts", 0, "", [], 1, true, false, false, true, []⟩ (by decide)).1
      ⟨⟨0, "a.ts", .reading 0 1⟩, some 0, false⟩ (by decide) rfl
  have rebuilds : now.rebuildsOf "a.ts" = [1] := by decide
  exact ⟨by decide, by decide, rebuilds, void.idle (.read 0 (.ok "a")) rfl,
    (void.alone.members "a.ts").trans rebuilds⟩

end Inlay.Update
