import Mathlib.Data.List.Induction
import Inlay.Proofs.Invariant

/-!
No file is left waiting.

An entry that is not up to date has a job that will see to it: one that is still delayed, or one
that reads or builds for the entry as it is now. A job of an older generation may end without a
trace, but the notification that made it old has armed another. The only job that can be lost is
one whose reader breaks down, and the next notification makes up for it.
-/

namespace Inlay.Update

open State

/-- A job of the path is delayed, or works for the entry in its present generation. -/
def Attended (state : State) (path : String) (entry : Entry) : Prop :=
  ∃ job ∈ state.jobs, job.path = path ∧
    (job.stage = .delayed ∨ job.WorksFor entry.birth entry.generation)

/-- The path is up to date or attended. -/
def Tended (state : State) (path : String) : Prop :=
  ∀ entry, state.registry.get? path = some entry → entry.dirty = true → Attended state path entry

/-- A read of the path ends because its reader breaks down. -/
def Breaks (state : State) (path : String) (event : Event) : Prop :=
  ∃ id birth generation, event = .read id (.error .broken) ∧
    state.job? id = some ⟨id, path, .reading birth generation⟩

section

variable {hasReader : Bool} {state next : State} {path other : String} {entry : Entry}
  {event : Event} {woken : Job}

theorem Attended.armed_or_rebuilding (attended : Attended state path entry) :
    state.isArmed path = true ∨ 0 < state.rebuilding path := by
  obtain ⟨job, member, rfl, _⟩ := attended
  by_cases delayed : job.isDelayed
  · left
    exact List.any_eq_true.mpr ⟨job, member, by simp [delayed]⟩
  · right
    exact List.length_pos_of_mem (List.mem_filter.mpr ⟨member, by simp [delayed]⟩)

/-! ## What is done to the jobs -/

theorem attended_schedule_self (path : String) (entry : Entry) (unclosed : state.closed = false) :
    Attended (state.schedule path) path entry := by
  refine ⟨⟨state.issued, path, .delayed⟩, ?_, rfl, .inl rfl⟩
  simp [schedule, unclosed]

/-- Arming a job takes another away only to put itself in its place. -/
theorem Attended.schedule (attended : Attended state path entry) (other : String) :
    Attended (state.schedule other) path entry := by
  obtain ⟨job, member, same, works⟩ := attended
  by_cases closed : state.closed
  · exact ⟨job, by simpa [State.schedule, closed] using member, same, works⟩
  · by_cases replaced : job.path = other ∧ job.stage = .delayed
    · rw [← same, replaced.1]
      exact attended_schedule_self other entry (by simpa using closed)
    · refine ⟨job, ?_, same, works⟩
      have kept : job.path = other → job.isDelayed = false := by
        simpa [Job.isDelayed] using replaced
      rw [State.schedule, if_neg closed]
      refine List.mem_append_left _ (List.mem_filter.mpr ⟨member, ?_⟩)
      by_cases here : job.path = other
      · simp [kept here]
      · simp [here]

theorem Attended.cancel (attended : Attended state path entry) (different : path ≠ other) :
    Attended (state.cancel other) path entry := by
  obtain ⟨job, member, same, works⟩ := attended
  exact ⟨job, List.mem_filter.mpr ⟨member, by simpa [same] using different⟩, same, works⟩

/-- A job ends that did not attend to the entry. -/
theorem Attended.drop (attended : Attended state path entry) (numbered : Numbered state)
    (wakes : Wakes state event woken)
    (idle : woken.path = path → woken.stage ≠ .delayed ∧
      ¬ woken.WorksFor entry.birth entry.generation) :
    Attended (state.drop woken.id) path entry := by
  obtain ⟨job, member, same, works⟩ := attended
  refine ⟨job, List.mem_filter.mpr ⟨member, ?_⟩, same, works⟩
  rw [decide_eq_true_eq]
  intro number
  have found := job?_of_mem numbered.unique member
  rw [number, wakes.job?] at found
  obtain rfl := Option.some.inj found
  exact works.elim (idle same).1 (idle same).2

/-- A job goes on to attend to the entry of its path. -/
theorem Attended.setStage (attended : Attended state path entry) (numbered : Numbered state)
    (wakes : Wakes state event woken) {stage : Stage}
    (works : woken.path = path → { woken with stage }.WorksFor entry.birth entry.generation) :
    Attended (state.setStage woken.id stage) path entry := by
  obtain ⟨job, member, same, works'⟩ := attended
  by_cases number : job.id = woken.id
  · have found := job?_of_mem numbered.unique member
    rw [number, wakes.job?] at found
    obtain rfl := Option.some.inj found
    exact ⟨{ woken with stage }, List.mem_map.mpr ⟨woken, member, if_pos rfl⟩, same,
      .inr (works same)⟩
  · exact ⟨job, List.mem_map.mpr ⟨job, member, if_neg number⟩, same, works'⟩

/-! ## What an event can do -/

/-- A job that leaves nothing behind had nothing to attend to, unless its reader broke down. -/
theorem Ends.idle (ends : Ends state event woken) (wakes : Wakes state event woken)
    (unbroken : ¬ Breaks state woken.path event)
    (known : state.registry.get? woken.path = some entry) :
    woken.stage ≠ .delayed ∧ ¬ woken.WorksFor entry.birth entry.generation := by
  cases ends with
  | absent unknown => simp [unknown] at known
  | @gone _ id birth generation path stage works unknown =>
    constructor
    · rintro rfl
      simp at works
    · intro attends
      have same : entry.birth = birth := by
        rcases works with rfl | ⟨text, rfl⟩ <;> simp_all [Job.WorksFor]
      simp [entryOf?_eq_some.mpr ⟨known, same⟩] at unknown
  | broken =>
    cases wakes with
    | read job => exact absurd ⟨_, _, _, rfl, job⟩ unbroken
  | unread owned _ stale | failed owned stale | stale owned stale _ =>
    obtain ⟨known', rfl⟩ := entryOf?_eq_some.mp owned
    obtain rfl := Option.some.inj (known.symm.trans known')
    refine ⟨by simp, ?_⟩
    intro attends
    simp [Job.WorksFor, stale.symm] at attends

theorem Tended.notify {change : Entry → Entry} (tended : other ≠ path → Tended state path)
    (unclosed : state.closed = false) (keeps : ∀ entry, (change entry).path = entry.path) :
    Tended ({ state with
      registry := (state.registry.ensure other).modify other change }.schedule other) path := by
  intro entry found dirty
  by_cases same : other = path
  · subst same
    exact attended_schedule_self _ entry unclosed
  · rw [schedule_registry, Registry.get?_ensure_modify _ _ _ keeps, if_neg (Ne.symm same)] at found
    have before : Attended { state with
        registry := (state.registry.ensure other).modify other change } path entry :=
      tended same entry found dirty
    exact before.schedule other

theorem Tended.remove (tended : Tended state path) (other : String) :
    Tended { state with registry := state.registry.remove other } path := by
  intro entry found dirty
  rw [Registry.get?_remove] at found
  split at found
  · simp at found
  · exact tended entry found dirty

theorem Tended.load (tended : Tended state path) (other base : String) :
    Tended (state.modify other (·.load base)) path := by
  intro entry found dirty
  simp only [State.modify] at found
  rw [Registry.get?_modify _ _ _ (by simp)] at found
  split at found
  · obtain ⟨old, known, rfl⟩ := Option.map_eq_some_iff.mp found
    rw [Entry.load_eq] at dirty ⊢
    exact tended old known dirty
  · exact tended entry found dirty

/-- A job cleans up the entry of its path and ends. -/
theorem Tended.clean {change : Entry → Entry} (tended : Tended state path)
    (numbered : Numbered state) (wakes : Wakes state event woken)
    (keeps : ∀ entry, (change entry).path = entry.path)
    (cleans : ∀ entry, (change entry).dirty = false) :
    Tended ((state.drop woken.id).modify woken.path change) path := by
  intro entry found dirty
  simp only [State.modify] at found
  rw [Registry.get?_modify _ _ _ keeps] at found
  split at found
  · obtain ⟨old, _, rfl⟩ := Option.map_eq_some_iff.mp found
    simp [cleans] at dirty
  · next different =>
    exact (tended entry found dirty).drop numbered wakes fun same => absurd same.symm different

theorem closed_of_step (step : Step hasReader state event next) (unclosing : event ≠ .close) :
    next.closed = state.closed := by
  have schedule_closed : ∀ (state : State) path, (state.schedule path).closed = state.closed := by
    intro state path
    unfold State.schedule
    split <;> rfl
  cases step with
  | opened _ | edited _ | changed _ | wanted _ _ | rearmed _ _ _ _ _ => exact schedule_closed _ _
  | closed => exact absurd rfl unclosing
  | ignored _ | deleted _ | forgotten | dropped _ _ | reading _ _ _ _ | building _ _ _ | loaded _ _
  | unread _ _ _ | failed _ _ | accepted _ _ => rfl

theorem tended_of_step (step : Step hasReader state event next) (valid : Valid state)
    (unclosed : state.closed = false) (unclosing : event ≠ .close)
    (unbroken : ¬ Breaks state path event) (tended : Tended state path) : Tended next path := by
  have numbered := valid.numbered
  cases step with
  | ignored _ => exact tended
  | opened _ | changed _ | wanted _ _ => exact .notify (fun _ => tended) unclosed (by intro; rfl)
  | edited _ => exact .notify (fun _ => tended) unclosed (by simp)
  | @deleted other _ _ =>
    intro entry found dirty
    simp only [State.cancel, Registry.get?_remove] at found
    split at found
    · simp at found
    · next different => exact (tended entry found dirty).cancel different
  | forgotten => exact tended.remove _
  | closed => exact absurd rfl unclosing
  | dropped wakes ends =>
    intro entry found dirty
    refine (tended entry found dirty).drop numbered wakes ?_
    rintro rfl
    exact ends.idle wakes unbroken found
  | reading _ wakes known _ =>
    intro entry found dirty
    refine (tended entry found dirty).setStage numbered wakes ?_
    rintro rfl
    obtain rfl := Option.some.inj (known.symm.trans found)
    exact .inl rfl
  | building wakes known _ =>
    intro entry found dirty
    refine (tended entry found dirty).setStage numbered wakes ?_
    rintro rfl
    obtain rfl := Option.some.inj (known.symm.trans found)
    exact .inr ⟨_, rfl⟩
  | @loaded _ woken old base wakes loads =>
    intro entry found dirty
    have before : Attended state path entry := tended.load woken.path base entry found dirty
    refine before.setStage numbered wakes ?_
    rintro rfl
    have installed : (state.registry.modify woken.path (·.load base)).get? woken.path =
        some (old.load base) := by
      simp [Registry.get?_modify, loads.known]
    obtain rfl := Option.some.inj (installed.symm.trans found)
    rw [Entry.load_eq]
    exact .inr ⟨_, rfl⟩
  | unread wakes _ _ | failed wakes _ =>
    exact tended.clean numbered wakes (by intro; rfl) (by intro; rfl)
  | accepted wakes _ => exact tended.clean numbered wakes (by simp) (by intro; rw [accept_eq])
  | @rearmed id birth generation other text built old wakes owned dirty stale last =>
    intro entry found dirty
    rw [schedule_registry] at found
    by_cases same : other = path
    · subst same
      exact attended_schedule_self _ entry unclosed
    · refine Attended.schedule ?_ other
      exact (tended entry found dirty).drop numbered wakes fun here => absurd here same

/-- Whatever was before, a notification about a path sees to it that the path is attended. -/
theorem tended_of_notice {notice : Notice} (step : Step hasReader state (.notice notice) next)
    (valid : Valid state) (unclosed : state.closed = false) (news : notice ≠ .wanted notice.path) :
    Tended next notice.path := by
  cases step with
  | ignored silent =>
    intro entry found _
    have supported := valid.supported _ entry found
    rcases silent notice rfl supported with ⟨path, _, rfl, _⟩ | ⟨path, rfl, unknown⟩
    · exact absurd rfl news
    · simp [Notice.path, unknown] at found
  | opened _ | changed _ => exact .notify (fun other => absurd rfl other) unclosed (by intro; rfl)
  | edited _ => exact .notify (fun other => absurd rfl other) unclosed (by simp)
  | wanted _ _ => exact absurd rfl news
  | deleted _ =>
    intro entry found
    simp [State.cancel, Notice.path, Registry.get?_remove] at found
  | dropped wakes _ | building wakes _ _ | loaded wakes _ | accepted wakes _ => cases wakes

end

/-! ## Along a run -/

/-- A read of the path broke down, and nothing was notified about the path since. -/
def Stranded (hasReader : Bool) (events : List Event) (path : String) : Prop :=
  ∃ past event recent, events = past ++ event :: recent ∧
    Breaks (after hasReader past) path event ∧
    ∀ notice, .notice notice ∈ recent → notice.path = path → notice = .wanted path

section

variable {hasReader : Bool} {events : List Event} {path : String} {event : Event}

theorem Stranded.append (stranded : Stranded hasReader events path)
    (silent : ∀ notice, event = .notice notice → notice.path = path → notice = .wanted path) :
    Stranded hasReader (events ++ [event]) path := by
  obtain ⟨past, broken, recent, rfl, breaks, quiet⟩ := stranded
  refine ⟨past, broken, recent ++ [event], by simp, breaks, ?_⟩
  intro notice member about
  rcases List.mem_append.mp member with old | new
  · exact quiet notice old about
  · exact silent notice (List.mem_singleton.mp new).symm about

theorem Stranded.broken (stranded : Stranded hasReader events path) :
    ∃ id, .read id (.error .broken) ∈ events := by
  obtain ⟨past, _, recent, rfl, ⟨id, _, _, rfl, _⟩, _⟩ := stranded
  exact ⟨id, by simp⟩

theorem unclosed_after (unclosing : .close ∉ events) : (after hasReader events).closed = false := by
  induction events using List.reverseRecOn with
  | nil => rfl
  | append_singleton events event ih =>
    rw [List.mem_append, not_or, List.mem_singleton] at unclosing
    rw [after_concat, closed_of_step (step_spec hasReader _ event) (Ne.symm unclosing.2)]
    exact ih unclosing.1

theorem tended_or_stranded (path : String) (unclosing : .close ∉ events) :
    Tended (after hasReader events) path ∨ Stranded hasReader events path := by
  induction events using List.reverseRecOn with
  | nil =>
    left
    intro entry found
    simp [get?_after_nil] at found
  | append_singleton events event ih =>
    rw [List.mem_append, not_or, List.mem_singleton] at unclosing
    have step := step_spec hasReader (after hasReader events) event
    have valid := valid_after hasReader events
    have unclosed : (after hasReader events).closed = false := unclosed_after unclosing.1
    rw [after_concat]
    by_cases breaks : Breaks (after hasReader events) path event
    · exact .inr ⟨events, event, [], rfl, breaks, by simp⟩
    · rcases ih unclosing.1 with tended | stranded
      · exact .inl (tended_of_step step valid unclosed (Ne.symm unclosing.2) breaks tended)
      · by_cases news : ∃ notice, event = .notice notice ∧ notice.path = path ∧
          notice ≠ .wanted path
        · obtain ⟨notice, rfl, rfl, news⟩ := news
          exact .inl (tended_of_notice step valid unclosed news)
        · refine .inr (stranded.append fun notice same about => ?_)
          by_contra other
          exact news ⟨notice, same, about, other⟩

end

/-- While the service is not closed, an entry that is not up to date has a job that is delayed,
reads or builds, unless a reader of it broke down since it was last notified of. When no job is left
every other entry is up to date, and all of them are if no reader ever broke down. -/
theorem dirty_entry_has_job {hasReader : Bool} {events : List Event}
    (unclosing : .close ∉ events) :
    (∀ path entry, (after hasReader events).registry.get? path = some entry → entry.dirty = true →
      ¬ Stranded hasReader events path →
        (after hasReader events).isArmed path = true ∨
          0 < (after hasReader events).rebuilding path) ∧
    ((after hasReader events).jobs = [] →
      (∀ path, (after hasReader events).registry.isDirty path = true →
        Stranded hasReader events path) ∧
      ((∀ id, .read id (.error .broken) ∉ events) →
        ∀ path, (after hasReader events).registry.isDirty path = false)) := by
  have attended : ∀ path entry, (after hasReader events).registry.get? path = some entry →
      entry.dirty = true → ¬ Stranded hasReader events path →
        Attended (after hasReader events) path entry := by
    intro path entry known dirty unbroken
    exact (tended_or_stranded path unclosing).resolve_right unbroken entry known dirty
  refine ⟨fun path entry known dirty unbroken =>
    (attended path entry known dirty unbroken).armed_or_rebuilding, fun idle => ?_⟩
  have stranded : ∀ path, (after hasReader events).registry.isDirty path = true →
      Stranded hasReader events path := by
    intro path dirty
    obtain ⟨entry, known, dirty⟩ := (Option.any_eq_true _ _).mp dirty
    by_contra unbroken
    obtain ⟨job, member, _⟩ := attended path entry known dirty unbroken
    simp [idle] at member
  refine ⟨stranded, fun unbroken path => ?_⟩
  by_contra dirty
  obtain ⟨id, member⟩ := (stranded path (by simpa using dirty)).broken
  exact unbroken id member

/-- A file is edited while it is read, and the read fails. The edit has armed a job of its own, and
when that one has failed to read too nothing is left to do. -/
theorem edit_during_failing_read_has_job :
    let events : List Event := [.notice (.changed "a.ts"), .fire 0,
      .notice (.edited "a.ts" [.insert ⟨0, 0⟩ "b"]), .read 0 (.error .unreadable)]
    let later : List Event := events ++ [.fire 1, .read 1 (.error .unreadable)]
    (after true events).registry.isDirty "a.ts" = true ∧
      ((after true events).isArmed "a.ts" = true ∨ 0 < (after true events).rebuilding "a.ts") ∧
      (after true later).jobs = [] ∧ (after true later).registry.isDirty "a.ts" = false := by
  intro events later
  have unbroken : ¬ Stranded true events "a.ts" := by
    intro stranded
    obtain ⟨id, member⟩ := stranded.broken
    simp [events] at member
  have idle : (after true later).jobs = [] := by decide
  have waiting := @dirty_entry_has_job true events (by simp [events])
  have done := @dirty_entry_has_job true later (by simp [later, events])
  exact ⟨by decide, waiting.1 "a.ts" _ rfl rfl unbroken, idle,
    (done.2 idle).2 (by simp [later, events]) "a.ts"⟩

/-- When a reader breaks down its entry stays dirty, and nothing will see to it. -/
theorem broken_reader_strands_entry :
    let events : List Event := [.notice (.changed "a.ts"), .fire 0, .read 0 (.error .broken)]
    .close ∉ events ∧ (after true events).registry.isDirty "a.ts" = true ∧
      (after true events).isArmed "a.ts" = false ∧ (after true events).rebuilding "a.ts" = 0 ∧
      (after true events).jobs = [] := by
  intro events
  exact ⟨by simp [events], by decide, by decide, by decide, by decide⟩

end Inlay.Update
