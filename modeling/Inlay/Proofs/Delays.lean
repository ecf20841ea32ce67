import Inlay.Proofs.OneFile

/-!
Jobs that wait for their delays.

Of the jobs of a path at most one is delayed: a notification that arms a job takes the delayed one
away, and a stale result arms a job only if there is none. A job that is armed has a new number,
so that the jobs that fire are told apart. `Timing` says once what an event can do to the delayed
jobs of a path; what runs do follows from it.
-/

namespace Inlay

/-- Whether a notification arms a job. Hints are not asked for of a file that is known. -/
def Notice.arms (registry : Registry) : Notice → Bool
  | deleted _ => false
  | wanted path => !registry.contains path
  | opened _ _ | edited _ _ | changed _ => true

namespace Update

open State

/-- The jobs of a path that wait for their delay to be over. -/
def State.delayedOf (state : State) (path : String) : List Job :=
  (state.jobsOf path).filter (·.isDelayed)

/-- The notification by which an event arms a job of the path. -/
def Event.heeded? (state : State) (path : String) : Event → Option Notice
  | .notice told =>
    if told.path = path ∧ Language.isSupported path ∧ state.closed = false ∧
        told.arms state.registry then some told
    else none
  | _ => none

/-- The job of the path whose delay ends with an event. -/
def Event.fired? (state : State) (path : String) : Event → Option Nat
  | .fire id =>
    ((state.job? id).filter fun job => job.path == path && job.isDelayed).map (·.id)
  | _ => none

namespace State

/-- The notifications of a run that arm jobs of the path. -/
def heeded (hasReader : Bool) (path : String) (state : State) : List Event → List Notice
  | [] => []
  | event :: events =>
    (event.heeded? state path).toList ++ (state.step hasReader event).heeded hasReader path events

/-- The jobs of the path whose delay ends in a run. -/
def firings (hasReader : Bool) (path : String) (state : State) : List Event → List Nat
  | [] => []
  | event :: events =>
    (event.fired? state path).toList ++ (state.step hasReader event).firings hasReader path events

end State

/-- An event deletes the path or ends the service, and with that its delays. -/
def Cancels (path : String) (event : Event) : Prop :=
  event = .notice (.deleted path) ∨ event = .close

section

variable {hasReader : Bool} {state next : State} {path : String} {event : Event} {job : Job}
  {id : Nat}

/-! ## The delayed jobs -/

theorem mem_delayedOf :
    job ∈ state.delayedOf path ↔ job ∈ state.jobs ∧ job.path = path ∧ job.stage = .delayed := by
  rw [delayedOf, jobsOf, List.mem_filter, List.mem_filter]
  simp [Job.isDelayed, and_assoc]

theorem isArmed_iff : state.isArmed path = true ↔ state.delayedOf path ≠ [] := by
  constructor
  · intro armed
    obtain ⟨job, member, own⟩ := List.any_eq_true.mp armed
    have own : job.path = path ∧ job.stage = .delayed := by simpa [Job.isDelayed] using own
    exact List.ne_nil_of_mem (mem_delayedOf.mpr ⟨member, own⟩)
  · intro some
    obtain ⟨job, member⟩ := List.exists_mem_of_ne_nil _ some
    obtain ⟨member, own, delayed⟩ := mem_delayedOf.mp member
    exact List.any_eq_true.mpr ⟨job, member, by simp [own, delayed, Job.isDelayed]⟩

theorem fired?_eq_some (numbered : Numbered state) :
    event.fired? state path = some id ↔
      event = .fire id ∧ (⟨id, path, .delayed⟩ : Job) ∈ state.delayedOf path := by
  constructor
  · intro fired
    cases event with
    | fire number =>
      obtain ⟨job, found, rfl⟩ := Option.map_eq_some_iff.mp fired
      obtain ⟨found, own⟩ := Option.filter_eq_some_iff.mp found
      have own : job.path = path ∧ job.stage = .delayed := by simpa [Job.isDelayed] using own
      refine ⟨congrArg Event.fire (job?_id found).symm, mem_delayedOf.mpr ?_⟩
      rw [← own.1, ← own.2]
      exact ⟨List.mem_of_find?_eq_some found, rfl, rfl⟩
    | notice _ | read _ _ | build _ _ | forget _ | close => simp [Event.fired?] at fired
  · rintro ⟨rfl, member⟩
    have found := job?_of_mem numbered.unique (mem_delayedOf.mp member).1
    simp [Event.fired?, found, Job.isDelayed]

/-- A job that is not one of the delayed jobs of the path leaves them alone. -/
theorem filter_delayedOf (numbered : Numbered state) (member : job ∈ state.jobs)
    (working : job ∉ state.delayedOf path) :
    (state.delayedOf path).filter (·.id ≠ job.id) = state.delayedOf path := by
  refine List.filter_eq_self.mpr fun mine isMine => ?_
  rw [decide_eq_true_eq]
  intro same
  have found := job?_of_mem numbered.unique (mem_delayedOf.mp isMine).1
  rw [same, job?_of_mem numbered.unique member] at found
  exact working (Option.some.inj found ▸ isMine)

theorem delayedOf_drop (state : State) (path : String) (id : Nat) :
    (state.drop id).delayedOf path = (state.delayedOf path).filter (·.id ≠ id) := by
  simp only [delayedOf, jobsOf, State.drop, List.filter_filter]
  refine List.filter_congr fun job _ => ?_
  cases job.isDelayed <;> simp [Bool.and_comm]

theorem delayedOf_setStage (state : State) (path : String) (id : Nat) {stage : Stage}
    (working : stage ≠ .delayed) :
    (state.setStage id stage).delayedOf path = (state.delayedOf path).filter (·.id ≠ id) := by
  have kept : ∀ jobs : List Job, (jobs.map fun job =>
      if job.id = id then { job with stage } else job).filter (fun job =>
        job.isDelayed && job.path == path) =
      jobs.filter fun job => job.id ≠ id && (job.isDelayed && job.path == path) := by
    intro jobs
    induction jobs with
    | nil => rfl
    | cons job jobs ih =>
      have begun : { job with stage }.isDelayed = false := by simpa [Job.isDelayed] using working
      by_cases same : job.id = id
      · rw [List.map_cons, if_pos same, List.filter_cons_of_neg (by simp [begun]), ih,
          List.filter_cons_of_neg (by simp [same])]
      · simp [same, ih, List.filter_cons]
  simp only [delayedOf, jobsOf, setStage, List.filter_filter]
  exact kept state.jobs

theorem delayedOf_schedule (state : State) (path : String) (unclosed : state.closed = false) :
    (state.schedule path).delayedOf path = [⟨state.issued, path, .delayed⟩] := by
  have others : ((state.jobs.filter fun job => !(job.path == path && job.isDelayed)).filter
      (·.path == path)).filter (·.isDelayed) = [] := by
    simp only [List.filter_filter, List.filter_eq_nil_iff]
    intro job _
    cases job.isDelayed <;> cases job.path == path <;> simp
  simp only [delayedOf, jobsOf, schedule, unclosed, Bool.false_eq_true, if_false,
    List.filter_append, others, List.nil_append]
  simp [Job.isDelayed]

/-- What an event can do to the delayed jobs of a path. -/
inductive Timing (state : State) (path : String) (event : Event) (next : State) : Prop
  | kept (unheeded : event.heeded? state path = none) (unfired : event.fired? state path = none)
      (same : next.delayedOf path = state.delayedOf path)
  | armed {notice : Notice} (heeded : event.heeded? state path = some notice)
      (unfired : event.fired? state path = none)
      (new : next.delayedOf path = [⟨state.issued, path, .delayed⟩])
  /-- A stale result arms a job, for want of another. -/
  | rearmed (unheeded : event.heeded? state path = none)
      (unfired : event.fired? state path = none) (untended : ¬ Tended state path)
      (unarmed : state.delayedOf path = [])
      (new : next.delayedOf path = [⟨state.issued, path, .delayed⟩])
  | fired {id : Nat} (unheeded : event.heeded? state path = none)
      (fired : event.fired? state path = some id)
      (gone : next.delayedOf path = (state.delayedOf path).filter (·.id ≠ id))
  | cancelled (cancels : Cancels path event) (unheeded : event.heeded? state path = none)
      (unfired : event.fired? state path = none) (none : next.delayedOf path = [])

theorem heeded?_eq_some {told : Notice} :
    event.heeded? state path = some told ↔
      event = .notice told ∧ told.path = path ∧ Language.isSupported path ∧
        state.closed = false ∧ told.arms state.registry := by
  constructor
  · intro heeded
    cases event with
    | notice noticed =>
      obtain ⟨holds, ⟨rfl⟩⟩ := Option.ite_none_right_eq_some.mp heeded
      exact ⟨rfl, holds⟩
    | fire _ | read _ _ | build _ _ | forget _ | close => simp [Event.heeded?] at heeded
  · rintro ⟨rfl, holds⟩
    exact if_pos holds

/-- A job that an event wakes is a delayed one of the path only if it fires. -/
theorem not_mem_delayedOf (numbered : Numbered state) (wakes : Wakes state event job)
    (unfired : event.fired? state path = none) : job ∉ state.delayedOf path := by
  intro member
  obtain ⟨_, own, delayed⟩ := mem_delayedOf.mp member
  cases wakes with
  | fire found =>
    obtain rfl := own
    have fired := (fired?_eq_some numbered).mpr ⟨rfl, member⟩
    simp [unfired] at fired
  | read _ | build _ => simp at delayed

theorem delayedOf_drop_woken (numbered : Numbered state) (wakes : Wakes state event job)
    (unfired : event.fired? state path = none) :
    (state.drop job.id).delayedOf path = state.delayedOf path := by
  rw [delayedOf_drop]
  exact filter_delayedOf numbered (List.mem_of_find?_eq_some wakes.job?)
    (not_mem_delayedOf numbered wakes unfired)

theorem delayedOf_setStage_woken (numbered : Numbered state) (wakes : Wakes state event job)
    (unfired : event.fired? state path = none) {stage : Stage} (working : stage ≠ .delayed) :
    (state.setStage job.id stage).delayedOf path = state.delayedOf path := by
  rw [delayedOf_setStage _ _ _ working]
  exact filter_delayedOf numbered (List.mem_of_find?_eq_some wakes.job?)
    (not_mem_delayedOf numbered wakes unfired)

/-- A job that fires is no longer delayed. -/
theorem delayedOf_fire (hasReader : Bool) (state : State) (id : Nat) (path : String) :
    (state.fire hasReader id path).1.delayedOf path =
      (state.delayedOf path).filter (·.id ≠ id) := by
  have building : ∀ state : State, (state.startBuild id path).1.delayedOf path =
      (state.delayedOf path).filter (·.id ≠ id) := by
    intro state
    unfold startBuild
    split
    · exact delayedOf_drop state path id
    · exact delayedOf_setStage state path id (by simp)
  unfold State.fire
  split
  · exact delayedOf_drop state path id
  split
  · exact building state
  split
  · exact delayedOf_setStage state path id (by simp)
  · exact building _

theorem timing_of_schedule {told : Notice} {registry : Registry}
    (unfired : (Event.notice told).fired? state path = none)
    (supported : Language.isSupported told.path) (arms : told.arms state.registry) :
    Timing state path (.notice told) ({ state with registry }.schedule told.path) := by
  by_cases about : told.path = path
  · by_cases closed : state.closed = false
    · subst about
      exact .armed (heeded?_eq_some.mpr ⟨rfl, rfl, supported, closed, arms⟩) unfired
        (delayedOf_schedule _ told.path closed)
    · refine .kept (by simp [Event.heeded?, closed]) unfired ?_
      simp [schedule, closed, delayedOf, jobsOf]
  · refine .kept (by simp [Event.heeded?, about]) unfired ?_
    exact congrArg (List.filter _) (jobsOf_schedule (Ne.symm about))

/-- While a path is tended, no stale result finds it without a job. -/
theorem not_tended_of_rearmed {birth generation : Nat} {text : String} {built : Built}
    {entry : Entry} (numbered : Numbered state)
    (wakes : Wakes state (.build id (some built)) ⟨id, path, .building birth generation text⟩)
    (known : state.entryOf? path birth = some entry) (dirty : entry.dirty = true)
    (stale : entry.generation ≠ generation)
    (last : (state.drop id).isArmed path = false ∧ (state.drop id).rebuilding path = 0) :
    ¬ Tended state path := by
  intro tended
  have attended := tended entry (entryOf?_eq_some.mp known).1 dirty
  have idle : ¬ Job.WorksFor ⟨id, path, .building birth generation text⟩ entry.birth
      entry.generation := by
    intro works
    simp [Job.WorksFor, Ne.symm stale] at works
  rcases (attended.drop numbered wakes fun _ => ⟨by simp, idle⟩).armed_or_rebuilding with
    armed | rebuilding
  · simp [last.1] at armed
  · simp [last.2] at rebuilding

theorem timing_of_step (step : Step hasReader state event next) (numbered : Numbered state)
    (unfired : event.fired? state path = none) : Timing state path event next := by
  have unheeded : ∀ job, Wakes state event job → event.heeded? state path = none := by
    intro job wakes
    cases wakes <;> rfl
  cases step with
  | ignored silent =>
    refine .kept ?_ unfired rfl
    cases event with
    | notice told =>
      refine if_neg ?_
      rintro ⟨about, supported, _, arms⟩
      rcases silent told rfl (about ▸ supported) with ⟨_, _, rfl, known⟩ | ⟨_, rfl, _⟩
      · simp [Notice.arms, Registry.contains, known] at arms
      · simp [Notice.arms] at arms
    | fire _ | read _ _ | build _ _ | forget _ | close => rfl
  | opened supported => exact timing_of_schedule unfired supported rfl
  | edited supported => exact timing_of_schedule unfired supported rfl
  | changed supported => exact timing_of_schedule unfired supported rfl
  | wanted supported unknown =>
    exact timing_of_schedule unfired supported (by simp [Notice.arms, Registry.contains, unknown])
  | @deleted noticed _ known =>
    have unheeded : (Event.notice (.deleted noticed)).heeded? state path = none := by
      simp [Event.heeded?, Notice.arms]
    by_cases about : noticed = path
    · subst about
      refine .cancelled (.inl rfl) unheeded unfired ?_
      simp [delayedOf, jobsOf, State.cancel, List.filter_filter]
    · exact .kept unheeded unfired (congrArg (List.filter _) (jobsOf_cancel (Ne.symm about)))
  | forgotten => exact .kept rfl unfired rfl
  | closed => exact .cancelled (.inr rfl) rfl unfired rfl
  | dropped wakes _ =>
    exact .kept (unheeded _ wakes) unfired (delayedOf_drop_woken numbered wakes unfired)
  | reading _ wakes _ _ =>
    exact .kept (unheeded _ wakes) unfired
      (delayedOf_setStage_woken numbered wakes unfired (by simp))
  | building wakes _ _ =>
    exact .kept (unheeded _ wakes) unfired
      (delayedOf_setStage_woken numbered wakes unfired (by simp))
  | loaded wakes _ =>
    exact .kept (unheeded _ wakes) unfired
      (delayedOf_setStage_woken numbered wakes unfired (by simp))
  | unread wakes _ _ =>
    exact .kept (unheeded _ wakes) unfired (delayedOf_drop_woken numbered wakes unfired)
  | failed wakes _ =>
    exact .kept (unheeded _ wakes) unfired (delayedOf_drop_woken numbered wakes unfired)
  | accepted wakes _ =>
    exact .kept (unheeded _ wakes) unfired (delayedOf_drop_woken numbered wakes unfired)
  | @rearmed id birth generation noticed text built entry wakes owned dirty stale last =>
    have dropped := delayedOf_drop_woken numbered wakes unfired
    by_cases about : noticed = path
    · subst about
      by_cases closed : state.closed = false
      · refine .rearmed rfl unfired
          (not_tended_of_rearmed numbered wakes owned dirty stale last) ?_ ?_
        · by_contra some
          rw [← dropped] at some
          simp [isArmed_iff.mpr some] at last
        · exact delayedOf_schedule _ noticed closed
      · refine .kept rfl unfired (Eq.trans ?_ dropped)
        simp [schedule, State.drop, closed]
    · refine .kept rfl unfired (Eq.trans ?_ dropped)
      exact congrArg (List.filter _) (jobsOf_schedule (Ne.symm about))

theorem timing (hasReader : Bool) (path : String) (numbered : Numbered state) (event : Event) :
    Timing state path event (state.step hasReader event) := by
  cases fired : event.fired? state path with
  | none => exact timing_of_step (step_spec hasReader state event) numbered fired
  | some id =>
    obtain ⟨rfl, member⟩ := (fired?_eq_some numbered).mp fired
    refine .fired rfl fired ?_
    have found := job?_of_mem numbered.unique (mem_delayedOf.mp member).1
    simp only [State.step, found]
    exact delayedOf_fire hasReader state id path

/-! ## Along a run -/

/-- No two jobs of the path are delayed. -/
def State.OneDelayed (state : State) (path : String) : Prop := (state.delayedOf path).length ≤ 1

theorem oneDelayed_step (hasReader : Bool) (numbered : Numbered state) (event : Event)
    (one : state.OneDelayed path) : (state.step hasReader event).OneDelayed path := by
  unfold OneDelayed at one ⊢
  cases timing hasReader path numbered event with
  | kept _ _ same => rwa [same]
  | armed _ _ new | rearmed _ _ _ _ new => simp [new]
  | fired _ _ gone =>
    rw [gone]
    exact Nat.le_trans (List.length_filter_le _ _) one
  | cancelled _ _ _ none => simp [none]

theorem oneDelayed_run (hasReader : Bool) (valid : Valid state) (events : List Event)
    (one : state.OneDelayed path) : (state.run hasReader events).OneDelayed path := by
  induction events generalizing state with
  | nil => exact one
  | cons event events ih =>
    exact ih (valid_step hasReader event valid) (oneDelayed_step hasReader valid.numbered event one)

theorem oneDelayed_after (hasReader : Bool) (events : List Event) (path : String) :
    (after hasReader events).OneDelayed path :=
  oneDelayed_run hasReader valid_initial events (Nat.zero_le 1)

theorem State.OneDelayed.eq_singleton (one : state.OneDelayed path)
    (member : job ∈ state.delayedOf path) : state.delayedOf path = [job] := by
  obtain ⟨only, eq⟩ := List.length_eq_one_iff.mp
    (Nat.le_antisymm one (List.length_pos_of_mem member))
  rw [eq] at member ⊢
  rw [List.mem_singleton.mp member]

/-- Of the jobs that were armed before a run, only the one fires that is delayed when it begins, and
at most once. -/
theorem firings_of_old (hasReader : Bool) (valid : Valid state) (one : state.OneDelayed path)
    (events : List Event) :
    (state.firings hasReader path events).filter (· < state.issued) = [] ∨
      ∃ job, state.delayedOf path = [job] ∧
        (state.firings hasReader path events).filter (· < state.issued) = [job.id] := by
  induction events generalizing state with
  | nil => exact .inl rfl
  | cons event events ih =>
    have later := ih (valid_step hasReader event valid)
      (oneDelayed_step hasReader valid.numbered event one)
    have issued := issued_of_step (step_spec hasReader state event)
    have narrower : ((state.step hasReader event).firings hasReader path events).filter
        (· < state.issued) = (((state.step hasReader event).firings hasReader path events).filter
          (· < (state.step hasReader event).issued)).filter (· < state.issued) := by
      rw [List.filter_filter]
      refine List.filter_congr fun id _ => ?_
      by_cases old : id < state.issued
      · simp [old, Nat.lt_of_lt_of_le old issued]
      · simp [old]
    rw [firings, List.filter_append, narrower]
    cases timing hasReader path valid.numbered event with
    | kept _ unfired same =>
      rcases later with none | ⟨job, delayed, once⟩
      · simp [unfired, none]
      · rw [same] at delayed
        have member : job ∈ state.delayedOf path := by simp [delayed]
        have old := valid.numbered.issued job (mem_delayedOf.mp member).1
        exact .inr ⟨job, delayed, by simp [unfired, once, old]⟩
    | armed _ unfired new | rearmed _ unfired _ _ new =>
      left
      rcases later with none | ⟨job, delayed, once⟩
      · simp [unfired, none]
      · obtain rfl := List.singleton_inj.mp (new.symm.trans delayed)
        simp [unfired, once]
    | @fired id _ fired gone =>
      right
      obtain ⟨rfl, member⟩ := (fired?_eq_some valid.numbered).mp fired
      have only := one.eq_singleton member
      have old := valid.numbered.issued _ (mem_delayedOf.mp member).1
      rcases later with none | ⟨job, delayed, once⟩
      · exact ⟨_, only, by simp [fired, none, old]⟩
      · simp [gone, only] at delayed
    | cancelled _ _ unfired empty =>
      left
      rcases later with none | ⟨job, delayed, once⟩
      · simp [unfired, none]
      · simp [empty] at delayed

/-- A path that is armed stays so until a job of it fires or it is deleted. -/
theorem armed_run (hasReader : Bool) (valid : Valid state) {events : List Event}
    (armed : state.delayedOf path = [job])
    (unfired : state.firings hasReader path events = [])
    (kept : ∀ event ∈ events, ¬ Cancels path event) :
    ∃ last, (state.run hasReader events).delayedOf path = [last] ∧ job.id ≤ last.id ∧
      (state.heeded hasReader path events = [] → last = job) := by
  induction events generalizing state job with
  | nil => exact ⟨job, armed, Nat.le_refl _, fun _ => rfl⟩
  | cons event events ih =>
    obtain ⟨now, later⟩ := List.append_eq_nil_iff.mp unfired
    have kept' := fun event isLater => kept event (.tail _ isLater)
    have valid' := valid_step hasReader event valid
    cases timing hasReader path valid.numbered event with
    | kept unheeded _ same =>
      obtain ⟨last, isLast, le, same⟩ := ih valid' (same.trans armed) later kept'
      refine ⟨last, isLast, le, fun quiet => same ?_⟩
      simpa [heeded, unheeded] using quiet
    | armed heeded _ new =>
      obtain ⟨last, isLast, le, same⟩ := ih valid' new later kept'
      have member : job ∈ state.delayedOf path := by simp [armed]
      have old := valid.numbered.issued job (mem_delayedOf.mp member).1
      refine ⟨last, isLast, Nat.le_trans (Nat.le_of_lt old) le, fun quiet => ?_⟩
      simp [State.heeded, heeded] at quiet
    | rearmed _ _ _ unarmed _ => simp [armed] at unarmed
    | fired _ fired _ => simp [fired] at now
    | cancelled cancels _ _ _ => exact absurd cancels (kept event (.head _))

/-- While a path is tended and nothing is notified about it, no job of it is armed. -/
theorem unarmed_run (hasReader : Bool) (valid : Valid state) (unclosed : state.closed = false)
    {events : List Event} (unarmed : state.delayedOf path = []) (tended : Tended state path)
    (quiet : state.heeded hasReader path events = [])
    (kept : ∀ event ∈ events, ¬ Cancels path event)
    (unbroken : Never hasReader state events (Breaks · path ·)) :
    state.firings hasReader path events = [] ∧
      (state.run hasReader events).delayedOf path = [] := by
  induction events generalizing state with
  | nil => exact ⟨rfl, unarmed⟩
  | cons event events ih =>
    obtain ⟨now, quiet'⟩ := List.append_eq_nil_iff.mp quiet
    obtain ⟨whole, unbroken'⟩ := unbroken.cons
    have open' : event ≠ .close := fun close => kept event (.head _) (.inr close)
    have step := step_spec hasReader state event
    have next := ih (valid_step hasReader event valid)
      ((closed_of_step step open').trans unclosed)
    have tended' := tended_of_step step valid unclosed open' whole tended
    cases timing hasReader path valid.numbered event with
    | kept _ unfired same =>
      obtain ⟨none, still⟩ := next (same.trans unarmed) tended' quiet'
        (fun event isLater => kept event (.tail _ isLater)) unbroken'
      exact ⟨by simp [firings, unfired, none], still⟩
    | armed heeded _ _ => simp [heeded] at now
    | rearmed _ _ untended _ _ => exact absurd tended untended
    | fired _ fired _ =>
      have member := ((fired?_eq_some valid.numbered).mp fired).2
      simp [unarmed] at member
    | cancelled cancels _ _ _ => exact absurd cancels (kept event (.head _))

theorem firings_append (hasReader : Bool) (path : String) (state : State)
    (earlier later : List Event) :
    state.firings hasReader path (earlier ++ later) =
      state.firings hasReader path earlier ++
        (state.run hasReader earlier).firings hasReader path later := by
  induction earlier generalizing state with
  | nil => rfl
  | cons event earlier ih =>
    rw [List.cons_append, firings, firings, ih, List.append_assoc]
    rfl

theorem heeded_append (hasReader : Bool) (path : String) (state : State)
    (earlier later : List Event) :
    state.heeded hasReader path (earlier ++ later) =
      state.heeded hasReader path earlier ++
        (state.run hasReader earlier).heeded hasReader path later := by
  induction earlier generalizing state with
  | nil => rfl
  | cons event earlier ih =>
    rw [List.cons_append, heeded, heeded, ih, List.append_assoc]
    rfl

theorem tended_of_armed (armed : state.delayedOf path = [job]) : Tended state path := by
  have member : job ∈ state.delayedOf path := by simp [armed]
  obtain ⟨member, own, delayed⟩ := mem_delayedOf.mp member
  exact fun _ _ _ => ⟨job, member, own, .inl delayed⟩

/-- Without further notifications the job that is delayed fires once, and no other does unless a
reader of the path breaks down. -/
theorem fires_once (hasReader : Bool) (valid : Valid state) (unclosed : state.closed = false)
    {events : List Event} (armed : state.delayedOf path = [job])
    (quiet : state.heeded hasReader path events = [])
    (kept : ∀ event ∈ events, ¬ Cancels path event) :
    (state.firings hasReader path events = [] ∧
      (state.run hasReader events).delayedOf path = [job]) ∨
    ∃ others, state.firings hasReader path events = job.id :: others ∧
      (Never hasReader state events (Breaks · path ·) →
        others = [] ∧ (state.run hasReader events).delayedOf path = []) := by
  induction events generalizing state with
  | nil => exact .inl ⟨rfl, armed⟩
  | cons event events ih =>
    obtain ⟨now, quiet'⟩ := List.append_eq_nil_iff.mp quiet
    have kept' := fun event isLater => kept event (.tail _ isLater)
    have open' : event ≠ .close := fun close => kept event (.head _) (.inr close)
    have step := step_spec hasReader state event
    have valid' := valid_step hasReader event valid
    have unclosed' := (closed_of_step step open').trans unclosed
    cases timing hasReader path valid.numbered event with
    | kept _ unfired same =>
      have same' : state.firings hasReader path (event :: events) =
          (state.step hasReader event).firings hasReader path events := by simp [firings, unfired]
      rw [same']
      refine (ih valid' unclosed' (same.trans armed) quiet' kept').imp_right ?_
      exact fun ⟨others, once, only⟩ => ⟨others, once, fun unbroken => only unbroken.cons.2⟩
    | armed heeded _ _ => simp [heeded] at now
    | rearmed _ _ _ unarmed _ => simp [armed] at unarmed
    | fired _ fired gone =>
      obtain ⟨_, member⟩ := (fired?_eq_some valid.numbered).mp fired
      rw [armed, List.mem_singleton] at member
      refine .inr ⟨_, by rw [firings, fired, ← member]; rfl, fun unbroken => ?_⟩
      obtain ⟨whole, unbroken'⟩ := unbroken.cons
      have tended := tended_of_step step valid unclosed open' whole (tended_of_armed armed)
      exact unarmed_run hasReader valid' unclosed' (by simp [gone, armed, ← member]) tended quiet'
        kept' unbroken'
    | cancelled cancels _ _ _ => exact absurd cancels (kept event (.head _))

/-- A burst leaves one job, which is one that it armed. -/
theorem burst_armed (hasReader : Bool) (valid : Valid state) {burst : List Event}
    (heeded : state.heeded hasReader path burst ≠ [])
    (unfired : state.firings hasReader path burst = [])
    (kept : ∀ event ∈ burst, ¬ Cancels path event) :
    ∃ job, (state.run hasReader burst).delayedOf path = [job] ∧ state.issued ≤ job.id := by
  induction burst generalizing state with
  | nil => exact absurd rfl heeded
  | cons event burst ih =>
    obtain ⟨_, unfired'⟩ := List.append_eq_nil_iff.mp unfired
    have kept' := fun event isLater => kept event (.tail _ isLater)
    have valid' := valid_step hasReader event valid
    cases known : event.heeded? state path with
    | some _ =>
      cases timing hasReader path valid.numbered event with
      | armed _ _ new =>
        obtain ⟨last, isLast, newer, _⟩ := armed_run hasReader valid' new unfired' kept'
        exact ⟨last, isLast, newer⟩
      | kept unheeded _ _ | rearmed unheeded _ _ _ _ | fired unheeded _ _
      | cancelled _ unheeded _ _ => simp [known] at unheeded
    | none =>
      obtain ⟨last, isLast, newer⟩ := ih valid' (by simpa [State.heeded, known] using heeded)
        unfired' kept'
      exact ⟨last, isLast, Nat.le_trans (issued_of_step (step_spec hasReader state event)) newer⟩

end

end Update

end Inlay
