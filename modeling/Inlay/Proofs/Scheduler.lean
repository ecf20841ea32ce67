import Inlay.Proofs.Run
import Inlay.Proofs.Tables

/-!
Runs of the scheduler, and what they come to when the tables are left out.

Besides the events of the updates, a task that was told to end may do so, at any time after. Step by
step the tables stay exact, the jobs of the view go through the events as those of `State` do, and
the same is done meanwhile; the end of a task that was told to end is no event to them. What holds
after every list of events is thus true of every run of the scheduler.
-/

namespace Inlay.Update

/-- What can happen to the scheduler. -/
inductive Occurrence
  | event (event : Event)
  /-- A task that was told to end does so. -/
  | ending (task : Nat)

/-- The event that an occurrence is, if it is one. -/
def Occurrence.event? : Occurrence → Option Event
  | .event told => some told
  | .ending _ => none

def eventsOf (occurrences : List Occurrence) : List Event := occurrences.filterMap (·.event?)

theorem eventsOf_append (earlier later : List Occurrence) :
    eventsOf (earlier ++ later) = eventsOf earlier ++ eventsOf later :=
  List.filterMap_append

namespace Scheduler

/-- What an occurrence leads to, and what is done besides. Only a task that was not told to end goes
on with its work. -/
def respond (hasReader : Bool) (scheduler : Scheduler) : Occurrence → Scheduler × List Effect
  | .event (.notice (.wanted path)) =>
    (if Language.isSupported path then scheduler.notify (.wanted path) else scheduler, [])
  | .event (.notice notice) => (scheduler.notify notice, [])
  | .event (.fire id) =>
    match scheduler.live? id with
    | some ⟨⟨_, path, .delayed⟩, _, _⟩ => scheduler.fire hasReader id path
    | _ => (scheduler, [])
  | .event (.read id result) =>
    match scheduler.live? id with
    | some ⟨⟨_, path, .reading birth generation⟩, _, _⟩ =>
      scheduler.finishRead id path birth generation result
    | _ => (scheduler, [])
  | .event (.build id result) =>
    match scheduler.live? id with
    | some ⟨⟨_, path, .building birth generation _⟩, _, _⟩ =>
      scheduler.finishBuild id path birth generation result
    | _ => (scheduler, [])
  | .event (.forget path) =>
    ({ scheduler with registry := scheduler.registry.remove path }, [])
  | .event .close => (scheduler.close, [])
  | .ending id => (scheduler.deliver id, [])

def step (hasReader : Bool) (scheduler : Scheduler) (occurrence : Occurrence) : Scheduler :=
  (scheduler.respond hasReader occurrence).1

def run (hasReader : Bool) (scheduler : Scheduler) (occurrences : List Occurrence) : Scheduler :=
  occurrences.foldl (step hasReader) scheduler

/-- The scheduler to which occurrences lead from the start. -/
def after (hasReader : Bool) (occurrences : List Occurrence) : Scheduler :=
  run hasReader .initial occurrences

theorem after_append (hasReader : Bool) (past occurrences : List Occurrence) :
    after hasReader (past ++ occurrences) = (after hasReader past).run hasReader occurrences :=
  List.foldl_append

variable {scheduler : Scheduler} {task : Task} {id : Nat} {path : String}

/-! ## Tasks at work -/

/-- A task at work may go on to any stage of a rebuild, and it may be done. -/
structure AtWork (scheduler : Scheduler) (id : Nat) : Prop where
  goesOn : ∀ stage, stage ≠ .delayed → Exact (scheduler.setStage id stage)
  ends : Exact (scheduler.finish id)

theorem atWork_of_begun (exact : Exact scheduler) (member : task ∈ scheduler.tasks)
    (begun : task.stage ≠ .delayed) : AtWork scheduler task.id :=
  ⟨fun _ working => exact_setStage exact member begun working,
    exact_finish exact member (.inr begun)⟩

theorem finish_setStage (scheduler : Scheduler) (id : Nat) (stage : Stage) :
    (scheduler.setStage id stage).finish id = scheduler.finish id := by
  have others : (scheduler.setStage id stage).tasks.filter (·.id ≠ id) =
      scheduler.tasks.filter (·.id ≠ id) := by
    simp only [setStage]
    induction scheduler.tasks with
    | nil => rfl
    | cons task tasks ih =>
      by_cases own : task.id = id
      · rw [List.map_cons, if_pos own, List.filter_cons_of_neg (by simp [own]),
          List.filter_cons_of_neg (by simp [own]), ih]
      · rw [List.map_cons, if_neg own, List.filter_cons_of_pos (by simp [own]),
          List.filter_cons_of_pos (by simp [own]), ih]
  have found : (scheduler.setStage id stage).task? id =
      (scheduler.task? id).map fun task => { task with stage } := by
    simp only [setStage, task?]
    induction scheduler.tasks with
    | nil => rfl
    | cons task tasks ih =>
      by_cases own : task.id = id <;> simp [own, ih]
  unfold finish
  rw [others, found]
  cases scheduler.task? id with
  | none => rfl
  | some task =>
    obtain ⟨job, running, cancelled⟩ := task
    cases running <;> rfl

/-- A timer whose delay is over is at work. -/
theorem atWork_enter (exact : Exact scheduler)
    (timer : (⟨id, path, .delayed⟩ : Job) ∈ scheduler.view.jobs) :
    AtWork (scheduler.enter id path) id := by
  refine ⟨fun _ working => exact_begin exact timer working, ?_⟩
  have working : Stage.reading 0 0 ≠ .delayed := by simp
  have begun := exact_begin exact timer working
  obtain ⟨task, member, _, same⟩ : ∃ task ∈ ((scheduler.enter id path).setStage id
      (.reading 0 0)).tasks, task.cancelled = false ∧ task.toJob = ⟨id, path, .reading 0 0⟩ := by
    refine mem_view.mp ?_
    rw [view_setStage, view_enter, mem_setStage]
    exact .inr ⟨rfl, rfl, _, timer, rfl, rfl⟩
  have done := exact_finish begun member (.inr (by simp [same]))
  rwa [show task.id = id from congrArg Job.id same, finish_setStage] at done

theorem finish_registry (scheduler : Scheduler) (id : Nat) (registry : Registry) :
    { scheduler with registry }.finish id = { scheduler.finish id with registry } := by
  have left : ∀ (scheduler : Scheduler) (path : String) (number : Nat),
      { scheduler with registry }.leaveSet id path number =
        { scheduler.leaveSet id path number with registry } := by
    intro scheduler path number
    unfold leaveSet
    by_cases gone : (({ scheduler with
        sets := scheduler.sets.modify number (·.filter (· ≠ id)) }.members number).isEmpty &&
          scheduler.rebuilds.get? path = some number) = true
    · rw [if_pos gone]
      exact if_pos gone
    · rw [if_neg gone]
      exact if_neg gone
  simp only [finish, task?]
  split
  · exact left { scheduler with tasks := _ } _ _
  · rfl

theorem AtWork.modify (atWork : AtWork scheduler id) (path : String) (change : Entry → Entry) :
    AtWork (scheduler.modify path change) id := by
  refine ⟨fun stage working => (atWork.goesOn stage working).elsewhere _ _, ?_⟩
  rw [Scheduler.modify, finish_registry]
  exact atWork.ends.elsewhere _ _

/-! ## What a step comes to -/

/-- A step with the tables is a step without them. -/
structure Refines (next : Scheduler × List Effect) (target : State × List Effect) : Prop where
  exact : Exact next.1
  view : next.1.view = target.1
  effects : next.2 = target.2

theorem refines_finish (atWork : AtWork scheduler id) :
    Refines (scheduler.finish id, []) (scheduler.view.drop id, []) :=
  ⟨atWork.ends, view_finish scheduler id, rfl⟩

theorem Refines.ite {condition : Prop} [Decidable condition] {next next' : Scheduler × List Effect}
    {target target' : State × List Effect} (holds : condition → Refines next target)
    (fails : ¬ condition → Refines next' target') :
    Refines (if condition then next else next') (if condition then target else target') := by
  split
  · next isTrue => exact holds isTrue
  · next isFalse => exact fails isFalse

theorem refines_setStage (atWork : AtWork scheduler id) {stage : Stage} (working : stage ≠ .delayed)
    (effects : List Effect) :
    Refines (scheduler.setStage id stage, effects) (scheduler.view.setStage id stage, effects) :=
  ⟨atWork.goesOn stage working, view_setStage scheduler id stage, rfl⟩

theorem refines_startBuild (atWork : AtWork scheduler id) (path : String) :
    Refines (scheduler.startBuild id path) (scheduler.view.startBuild id path) := by
  have known : scheduler.view.registry = scheduler.registry := rfl
  simp only [startBuild, State.startBuild, known]
  cases scheduler.registry.get? path with
  | none => exact refines_finish atWork
  | some entry => exact refines_setStage atWork (by simp) _

theorem refines_fire (exact : Exact scheduler) (hasReader : Bool)
    (timer : (⟨id, path, .delayed⟩ : Job) ∈ scheduler.view.jobs) :
    Refines (scheduler.fire hasReader id path) (scheduler.view.fire hasReader id path) := by
  have atWork := atWork_enter exact timer
  rw [← view_enter scheduler id path]
  have known : (scheduler.enter id path).view.registry = (scheduler.enter id path).registry := rfl
  simp only [fire, State.fire, known]
  cases (scheduler.enter id path).registry.get? path with
  | none => exact refines_finish atWork
  | some entry =>
    refine .ite (fun _ => refines_startBuild atWork path) fun _ => .ite (fun _ => ?_) fun _ => ?_
    · exact refines_setStage atWork (by simp) _
    · exact refines_startBuild (atWork.modify path _) path

theorem refines_finishRead (atWork : AtWork scheduler id) (path : String) (birth generation : Nat)
    (result : Except ReadFailure String) :
    Refines (scheduler.finishRead id path birth generation result)
      (scheduler.view.finishRead id path birth generation result) := by
  have owned : scheduler.view.entryOf? path birth = scheduler.entryOf? path birth := rfl
  simp only [finishRead, State.finishRead, owned]
  cases result with
  | ok text =>
    cases scheduler.entryOf? path birth with
    | none => exact refines_finish atWork
    | some entry =>
      exact .ite (fun _ => refines_startBuild (atWork.modify path _) path)
        fun _ => refines_startBuild atWork path
  | error failure =>
    cases failure with
    | broken => exact refines_finish atWork
    | unreadable =>
      cases scheduler.entryOf? path birth with
      | none => exact refines_finish atWork
      | some entry =>
        refine .ite (fun _ => ?_) fun _ => .ite (fun _ => ?_) fun _ => refines_finish atWork
        · exact refines_startBuild (atWork.modify path _) path
        · exact refines_finish (atWork.modify path _)

theorem drop_schedule (state : State) {id : Nat} (issued : id ≠ state.issued) (path : String) :
    (state.schedule path).drop id = (state.drop id).schedule path := by
  unfold State.schedule
  cases closed : state.closed with
  | true => simp [State.drop, closed]
  | false => simp [State.drop, closed, issued.symm, List.filter_filter, Bool.and_comm]

/-- To a rebuild that is done the timer of its path is another task. -/
theorem isArmed_drop (exact : Exact scheduler) (member : task ∈ scheduler.tasks)
    (begun : task.stage ≠ .delayed) (path : String) :
    (scheduler.view.drop task.id).isArmed path = scheduler.view.isArmed path := by
  rw [Bool.eq_iff_iff]
  simp only [State.isArmed, State.drop, List.any_eq_true, List.mem_filter, decide_eq_true_eq]
  constructor
  · rintro ⟨job, ⟨isJob, _⟩, delayed⟩
    exact ⟨job, isJob, delayed⟩
  · rintro ⟨job, isJob, delayed⟩
    refine ⟨job, ⟨isJob, fun same => begun ?_⟩, delayed⟩
    obtain ⟨other, isOther, _, rfl⟩ := mem_view.mp isJob
    rw [exact.numbered.eq_of_id member isOther same.symm]
    simpa [Job.isDelayed] using (Bool.and_eq_true_iff.mp delayed).2

/-- A new timer of the path is armed by a rebuild before it is done. -/
theorem refines_rearm (exact : Exact scheduler) (member : task ∈ scheduler.tasks)
    (begun : task.stage ≠ .delayed) (path : String) :
    Refines ((scheduler.schedule path).finish task.id, [])
      ((scheduler.view.drop task.id).schedule path, []) := by
  have issued : task.id ≠ scheduler.issued := (exact.numbered.issued task member).ne
  obtain ⟨now, isNow, same, stage⟩ : ∃ now ∈ (scheduler.schedule path).tasks,
      now.id = task.id ∧ now.stage = task.stage := by
    unfold schedule
    split
    · exact ⟨task, member, rfl, rfl⟩
    · refine ⟨_, List.mem_append_left _ (List.mem_map_of_mem member), ?_⟩
      split <;> exact ⟨rfl, rfl⟩
  refine ⟨?_, ?_, rfl⟩
  · rw [← same]
    exact exact_finish (exact_schedule exact path) isNow (.inr (stage ▸ begun))
  · exact (view_finish _ _).trans
      ((congrArg (State.drop · task.id) (view_schedule exact path)).trans
        (drop_schedule scheduler.view issued path))

theorem refines_finishBuild (exact : Exact scheduler) (member : task ∈ scheduler.tasks)
    (begun : task.stage ≠ .delayed) (path : String) (birth generation : Nat)
    (result : Option Built) :
    Refines (scheduler.finishBuild task.id path birth generation result)
      (scheduler.view.finishBuild task.id path birth generation result) := by
  have atWork := atWork_of_begun exact member begun
  have owned : scheduler.view.entryOf? path birth = scheduler.entryOf? path birth := rfl
  have ended : ∀ (change : Entry → Entry) (effects : List Effect),
      Refines ((scheduler.modify path change).finish task.id, effects)
        ((scheduler.view.drop task.id).modify path change, effects) := fun change effects =>
    ⟨(atWork.modify path change).ends, view_finish _ _, rfl⟩
  simp only [finishBuild, State.finishBuild, owned]
  cases result with
  | none =>
    cases scheduler.entryOf? path birth with
    | none => exact refines_finish atWork
    | some entry => exact .ite (fun _ => ended _ _) fun _ => refines_finish atWork
  | some built =>
    cases scheduler.entryOf? path birth with
    | none => exact refines_finish atWork
    | some entry =>
      refine .ite (fun _ => ended _ _) fun _ => ?_
      have last : (entry.dirty && !scheduler.isPending task.id path) =
          (entry.dirty && !(scheduler.view.drop task.id).isArmed path &&
            decide ((scheduler.view.drop task.id).rebuilding path = 0)) := by
        rw [isArmed_drop exact member begun, isArmed_view exact, Bool.eq_iff_iff]
        have pending := isPending_iff exact task.id path
        simp only [Bool.and_eq_true, Bool.not_eq_true', decide_eq_true_eq, ← Bool.not_eq_true,
          pending, not_or, Nat.not_lt, Nat.le_zero, and_assoc]
      rw [last]
      exact .ite (fun _ => refines_rearm exact member begun path) fun _ => refines_finish atWork

theorem refines_schedule (exact : Exact scheduler) (registry : Registry) (path : String) :
    Refines ({ scheduler with registry }.schedule path, [])
      ({ scheduler.view with registry }.schedule path, []) :=
  have elsewhere := exact.elsewhere registry scheduler.closed
  ⟨exact_schedule elsewhere path, view_schedule elsewhere path, rfl⟩

theorem refines_notify (exact : Exact scheduler) (notice : Notice) :
    Refines (scheduler.notify notice, []) (scheduler.view.notify notice, []) := by
  have known : scheduler.view.registry = scheduler.registry := rfl
  have same : Refines (scheduler, []) (scheduler.view, []) := ⟨exact, rfl, rfl⟩
  cases notice with
  | opened path text | edited path edits | changed path =>
    simp only [notify, State.notify, known]
    split
    · exact refines_schedule exact _ path
    · exact same
  | deleted path =>
    simp only [notify, State.notify, known]
    split
    · have elsewhere := exact.elsewhere (scheduler.registry.remove path) scheduler.closed
      exact ⟨exact_cancel elsewhere path, view_cancel elsewhere path, rfl⟩
    · exact same
  | wanted path =>
    simp only [notify, State.notify, known]
    split
    · exact same
    · exact refines_schedule exact _ path

/-- What happens to the tasks is what happens to the jobs, and the same is done besides. -/
theorem refines_event (exact : Exact scheduler) (hasReader : Bool) (event : Event) :
    Refines (scheduler.respond hasReader (.event event))
      (scheduler.view.step hasReader event, scheduler.view.effects hasReader event) := by
  have same : Refines (scheduler, []) (scheduler.view, []) := ⟨exact, rfl, rfl⟩
  cases event with
  | notice notice =>
    cases notice with
    | wanted path =>
      simp only [respond, State.step, State.effects]
      split
      · exact refines_notify exact (.wanted path)
      · exact same
    | opened path text => exact refines_notify exact (.opened path text)
    | edited path edits => exact refines_notify exact (.edited path edits)
    | changed path => exact refines_notify exact (.changed path)
    | deleted path => exact refines_notify exact (.deleted path)
  | fire id =>
    simp only [respond, State.step, State.effects, job?_view exact.numbered]
    cases found : scheduler.live? id with
    | none => exact same
    | some task =>
      obtain ⟨member, rfl, uncancelled⟩ := (live?_eq_some exact.numbered).mp found
      obtain ⟨⟨id, path, stage⟩, running, cancelled⟩ := task
      cases stage with
      | delayed => exact refines_fire exact hasReader (mem_view.mpr ⟨_, member, uncancelled, rfl⟩)
      | reading | building => exact same
  | read id result =>
    simp only [respond, State.step, State.effects, job?_view exact.numbered]
    cases found : scheduler.live? id with
    | none => exact same
    | some task =>
      obtain ⟨member, rfl, _⟩ := (live?_eq_some exact.numbered).mp found
      obtain ⟨⟨id, path, stage⟩, running, cancelled⟩ := task
      cases stage with
      | reading birth generation =>
        exact refines_finishRead (atWork_of_begun exact member (by simp)) path birth generation
          result
      | delayed | building => exact same
  | build id result =>
    simp only [respond, State.step, State.effects, job?_view exact.numbered]
    cases found : scheduler.live? id with
    | none => exact same
    | some task =>
      obtain ⟨member, rfl, _⟩ := (live?_eq_some exact.numbered).mp found
      obtain ⟨⟨id, path, stage⟩, running, cancelled⟩ := task
      cases stage with
      | building birth generation text =>
        exact refines_finishBuild exact member (by simp) path birth generation result
      | delayed | reading => exact same
  | forget path => exact ⟨exact.elsewhere _ _, rfl, rfl⟩
  | close => exact ⟨exact_close exact, view_close exact, rfl⟩

theorem deliver_eq_finish (numbered : Numbered scheduler) (member : task ∈ scheduler.tasks)
    (told : task.cancelled = true) : scheduler.deliver task.id = scheduler.finish task.id := by
  rw [deliver, numbered.task? member, if_pos (by simpa using told)]

theorem deliver_eq_self (uncancelled : ∀ task, scheduler.task? id = some task →
    task.cancelled = false) : scheduler.deliver id = scheduler := by
  rw [deliver, if_neg]
  intro told
  obtain ⟨task, found, told⟩ := Option.any_eq_true _ _ |>.mp told
  simp [uncancelled task found] at told

/-- The end of a task that was told to end is nothing to the others. -/
theorem refines_ending (exact : Exact scheduler) (id : Nat) :
    Exact (scheduler.deliver id) ∧ (scheduler.deliver id).view = scheduler.view := by
  by_cases told : ∃ task, scheduler.task? id = some task ∧ task.cancelled = true
  · obtain ⟨task, found, told⟩ := told
    have member : task ∈ scheduler.tasks := List.mem_of_find?_eq_some found
    obtain rfl := task?_id found
    rw [deliver_eq_finish exact.numbered member told]
    refine ⟨exact_finish exact member (.inl told), ?_⟩
    rw [view_finish, State.drop]
    -- The view has no job of this number, since its only task was told to end.
    have others : scheduler.view.jobs.filter (·.id ≠ task.id) = scheduler.view.jobs := by
      refine List.filter_eq_self.mpr fun job isJob => ?_
      obtain ⟨other, isOther, uncancelled, rfl⟩ := mem_view.mp isJob
      refine decide_eq_true fun same => ?_
      rw [exact.numbered.eq_of_id isOther member same, told] at uncancelled
      exact absurd uncancelled (by simp)
    rw [others]
  · rw [deliver_eq_self fun task found => by simpa using fun told' => told ⟨task, found, told'⟩]
    exact ⟨exact, rfl⟩

/-! ## Runs -/

theorem exact_step (exact : Exact scheduler) (hasReader : Bool) (occurrence : Occurrence) :
    Exact (scheduler.step hasReader occurrence) := by
  cases occurrence with
  | event event => exact (refines_event exact hasReader event).exact
  | ending id => exact (refines_ending exact id).1

theorem exact_run (exact : Exact scheduler) (hasReader : Bool) (occurrences : List Occurrence) :
    Exact (scheduler.run hasReader occurrences) := by
  induction occurrences generalizing scheduler with
  | nil => exact exact
  | cons occurrence rest ih => exact ih (exact_step exact hasReader occurrence)

/-- The tables know of every task that was not told to end, in every run. -/
theorem exact_after (hasReader : Bool) (occurrences : List Occurrence) :
    Exact (after hasReader occurrences) :=
  exact_run exact_initial hasReader occurrences

theorem view_run (exact : Exact scheduler) (hasReader : Bool) (occurrences : List Occurrence) :
    (scheduler.run hasReader occurrences).view =
      scheduler.view.run hasReader (eventsOf occurrences) := by
  induction occurrences generalizing scheduler with
  | nil => rfl
  | cons occurrence rest ih =>
    have later := ih (exact_step exact hasReader occurrence)
    cases occurrence with
    | event event =>
      exact later.trans (congrArg (State.run hasReader · (eventsOf rest))
        (refines_event exact hasReader event).view)
    | ending id =>
      exact later.trans (congrArg (State.run hasReader · (eventsOf rest))
        (refines_ending exact id).2)

/-- Without the tables a run is a run of the jobs. -/
theorem view_after (hasReader : Bool) (occurrences : List Occurrence) :
    (after hasReader occurrences).view = State.after hasReader (eventsOf occurrences) :=
  view_run exact_initial hasReader occurrences

theorem view_after_append (hasReader : Bool) (past occurrences : List Occurrence) :
    (after hasReader (past ++ occurrences)).view =
      (after hasReader past).view.run hasReader (eventsOf occurrences) := by
  rw [after_append, view_run (exact_after hasReader past)]

end Scheduler

end Inlay.Update
