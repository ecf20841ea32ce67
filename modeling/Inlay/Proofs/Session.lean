import Inlay.Update.Session
import Inlay.Proofs.Scheduler

/-!
What a session does between notifications. Tasks, time and gates go on by what happens to the
scheduler, and neither bring notifications nor take any away: `Advances` says what they do to a
session.
-/

namespace Inlay

open Update

/-- Hints are asked for of files in a known language only. -/
def Notice.Expected : Notice → Prop
  | .wanted path => Language.isSupported path
  | _ => True

/-- The notification that an event handles. -/
def Update.Event.notice? : Event → Option Notice
  | .notice sent => some sent
  | _ => none

/-- The notification that waits to be handled. -/
def Ready.notice? : Ready → Option Notice
  | .notice sent => some sent
  | _ => none

/-- The notifications that are handled in a run, in order. -/
def Update.noticesOf (occurrences : List Occurrence) : List Notice :=
  (eventsOf occurrences).filterMap Event.notice?

theorem Update.noticesOf_append (earlier later : List Occurrence) :
    noticesOf (earlier ++ later) = noticesOf earlier ++ noticesOf later := by
  rw [noticesOf, eventsOf_append, List.filterMap_append]
  rfl

theorem Update.Scheduler.notify_eq_step {notice : Notice} (hasReader : Bool)
    (scheduler : Scheduler) (expected : notice.Expected) :
    scheduler.notify notice = scheduler.step hasReader (.event (.notice notice)) := by
  cases notice with
  | wanted path =>
    have supported : Language.isSupported path = true := expected
    simp only [step, respond, if_pos supported]
  | opened path text | edited path edits | changed path | deleted path => simp only [step, respond]

namespace Session

variable {shop : Workshop} {session next : Session}

/-! ## Tasks -/

/-- The session goes on by occurrences that are no notifications. Work becomes ready behind what was
ready before, and no notification is among it. -/
structure Advances (shop : Workshop) (session next : Session) : Prop where
  run : ∃ occurrences, noticesOf occurrences = [] ∧
    next.scheduler = session.scheduler.run shop.hasReader occurrences
  ready : ∃ works, works.filterMap Ready.notice? = [] ∧ next.ready = session.ready ++ works
  backlog : next.backlog = session.backlog
  bound : next.bound = session.bound

/-- Nothing that matters to notifications has changed. -/
theorem Advances.of_eq (scheduler : next.scheduler = session.scheduler)
    (ready : next.ready = session.ready) (backlog : next.backlog = session.backlog)
    (bound : next.bound = session.bound) : Advances shop session next :=
  ⟨⟨[], rfl, scheduler⟩, ⟨[], rfl, by rw [ready, List.append_nil]⟩, backlog, bound⟩

theorem Advances.trans {last : Session} (first : Advances shop session next)
    (second : Advances shop next last) : Advances shop session last := by
  obtain ⟨earlier, quiet, reached⟩ := first.run
  obtain ⟨later, quiet', reached'⟩ := second.run
  obtain ⟨works, plain, queued⟩ := first.ready
  obtain ⟨more, plain', queued'⟩ := second.ready
  refine ⟨⟨earlier ++ later, ?_, ?_⟩, ⟨works ++ more, ?_, ?_⟩,
    second.backlog.trans first.backlog, second.bound.trans first.bound⟩
  · rw [noticesOf_append, quiet, quiet']
    rfl
  · rw [reached', reached]
    exact List.foldl_append.symm
  · rw [List.filterMap_append, plain, plain']
    rfl
  · rw [queued', queued, List.append_assoc]

theorem advances_queue (session : Session) {works : List Ready}
    (plain : works.filterMap Ready.notice? = []) :
    Advances shop session { session with ready := session.ready ++ works } :=
  ⟨⟨[], rfl, rfl⟩, ⟨works, plain, rfl⟩, rfl, rfl⟩

theorem update_ready (session : Session) (next : Scheduler × List Effect) :
    ∃ works, works.filterMap Ready.notice? = [] ∧
      (session.update next).ready = session.ready ++ works := by
  refine ⟨_, ?_, List.append_assoc _ _ _⟩
  rw [List.filterMap_append, List.filterMap_map, List.filterMap_map, List.append_eq_nil_iff,
    List.filterMap_eq_nil_iff, List.filterMap_eq_nil_iff]
  exact ⟨fun _ _ => rfl, fun _ _ => rfl⟩

theorem advances_update {next : Scheduler × List Effect} {occurrence : Occurrence}
    (silent : noticesOf [occurrence] = [])
    (stepped : next.1 = session.scheduler.step shop.hasReader occurrence) :
    Advances shop session (session.update next) :=
  ⟨⟨[occurrence], silent, stepped⟩, update_ready session next, rfl, rfl⟩

theorem step_of_delayed {scheduler : Scheduler} {task : Task} (hasReader : Bool)
    (found : scheduler.live? task.id = some task) (stage : task.stage = .delayed) :
    (scheduler.fire hasReader task.id task.path).1 =
      scheduler.step hasReader (.event (.fire task.id)) := by
  obtain ⟨⟨id, path, _⟩, running, cancelled⟩ := task
  subst stage
  simp only [Scheduler.step, Scheduler.respond, found]

theorem step_of_reading {scheduler : Scheduler} {task : Task} {birth generation : Nat}
    (hasReader : Bool) (result : Except ReadFailure String)
    (found : scheduler.live? task.id = some task)
    (stage : task.stage = .reading birth generation) :
    (scheduler.finishRead task.id task.path birth generation result).1 =
      scheduler.step hasReader (.event (.read task.id result)) := by
  obtain ⟨⟨id, path, _⟩, running, cancelled⟩ := task
  subst stage
  simp only [Scheduler.step, Scheduler.respond, found]

theorem step_of_building {scheduler : Scheduler} {task : Task} {birth generation : Nat}
    {text : String} (hasReader : Bool) (result : Option Built)
    (found : scheduler.live? task.id = some task)
    (stage : task.stage = .building birth generation text) :
    (scheduler.finishBuild task.id task.path birth generation result).1 =
      scheduler.step hasReader (.event (.build task.id result)) := by
  obtain ⟨⟨id, path, _⟩, running, cancelled⟩ := task
  subst stage
  simp only [Scheduler.step, Scheduler.respond, found]

theorem live?_id {scheduler : Scheduler} {task : Task} {id : Nat}
    (found : scheduler.live? id = some task) : task.id = id :=
  Scheduler.task?_id (Option.filter_eq_some_iff.mp found).1

section

variable {task : Task} {birth generation : Nat} {text : String}

theorem advances_finishBuild (found : session.scheduler.live? task.id = some task)
    (stage : task.stage = .building birth generation text) (progress : Progress) :
    Advances shop session (finishBuild shop session task.toJob birth generation progress) := by
  have cleared : Advances shop session
      { session with progress := session.progress.filter (·.1 ≠ task.id) } :=
    .of_eq rfl rfl rfl rfl
  exact cleared.trans (advances_update rfl (step_of_building shop.hasReader _ found stage))

theorem advances_goOn (found : session.scheduler.live? task.id = some task)
    (stage : task.stage = .building birth generation text) (progress : Progress) :
    Advances shop session (goOn shop session task.toJob birth generation progress) := by
  unfold Session.goOn
  split
  · exact advances_finishBuild found stage _
  · split
    · exact .of_eq rfl rfl rfl rfl
    · exact advances_finishBuild found stage _

theorem advances_continueBuild (found : session.scheduler.live? task.id = some task)
    (stage : task.stage = .building birth generation text) :
    Advances shop session (continueBuild shop session task.toJob birth generation) := by
  unfold Session.continueBuild
  split
  · exact .of_eq rfl rfl rfl rfl
  · exact advances_finishBuild found stage _
  · exact advances_goOn found stage _

theorem advances_beginBuild (id : Nat) : Advances shop session (beginBuild shop session id) := by
  unfold Session.beginBuild
  split
  · next task found =>
    obtain rfl := live?_id found
    split
    · next stage => exact advances_goOn found stage _
    · exact .of_eq rfl rfl rfl rfl
  · exact .of_eq rfl rfl rfl rfl

theorem advances_read (found : session.scheduler.live? task.id = some task)
    (stage : task.stage = .reading birth generation) :
    Advances shop session (read shop session task.toJob birth generation) :=
  (advances_update rfl (step_of_reading shop.hasReader _ found stage)).trans
    (advances_beginBuild task.id)

theorem advances_fire (found : session.scheduler.live? task.id = some task)
    (stage : task.stage = .delayed) : Advances shop session (fire shop session task.toJob) := by
  have fired : Advances shop session
      (session.update (session.scheduler.fire shop.hasReader task.id task.path)) :=
    advances_update rfl (step_of_delayed shop.hasReader found stage)
  simp only [Session.fire]
  generalize session.update (session.scheduler.fire shop.hasReader task.id task.path) = next
    at fired ⊢
  split
  · exact fired
  · next task' found' =>
    rw [← live?_id found'] at found'
    split
    · next stage' =>
      split
      · exact fired.trans (advances_read found' stage')
      · exact fired.trans (.of_eq rfl rfl rfl rfl)
    · exact fired.trans (advances_beginBuild _)

theorem advances_deliver (id : Nat) : Advances shop session (session.deliver id) := by
  have ended : session.scheduler.deliver id =
      session.scheduler.step shop.hasReader (.ending id) := rfl
  exact advances_update rfl ended

theorem advances_resume (id : Nat) : Advances shop session (resume shop session id) := by
  unfold Session.resume
  split
  · exact advances_deliver id
  · next task found =>
    obtain rfl := live?_id found
    split
    · next stage => exact advances_fire found stage
    · next stage => exact advances_read found stage
    · next stage => exact advances_continueBuild found stage

end

theorem advances_start (id : Nat) : Advances shop session (start shop session id) := by
  unfold Session.start
  split
  · exact advances_deliver id
  · split
    · exact advances_queue session rfl
    · exact .of_eq rfl rfl rfl rfl

theorem advances_wake (time : Nat) : Advances shop session (session.wake time) := by
  refine ⟨⟨[], rfl, rfl⟩, ⟨_, ?_, rfl⟩, rfl, rfl⟩
  rw [List.filterMap_map, List.filterMap_eq_nil_iff]
  exact fun _ _ => rfl

theorem advances_setGate (name : GateName) (isOpen : Bool) :
    Advances shop session (session.setGate name isOpen) := by
  have released : ∀ gate : Gate,
      (if isOpen then gate.waiting.map Ready.resume else []).filterMap Ready.notice? = [] := by
    intro gate
    split
    · rw [List.filterMap_map, List.filterMap_eq_nil_iff]
      exact fun _ _ => rfl
    · rfl
  cases name with
  | oracle =>
    exact (advances_queue session (released session.oracleGate)).trans (.of_eq rfl rfl rfl rfl)
  | reader =>
    exact (advances_queue session (released session.readerGate)).trans (.of_eq rfl rfl rfl rfl)

theorem advances_forget (path : String) : Advances shop session (session.forget path) :=
  ⟨⟨[.event (.forget path)], rfl, rfl⟩, ⟨[], rfl, (List.append_nil _).symm⟩, rfl, rfl⟩

/-- The session with all its tasks told to end, before what is ready is heard once more. -/
def shut (session : Session) : Session :=
  { session.update (session.scheduler.close, []) with
    progress := []
    oracleClosed := session.oracleClosed + 1 }

theorem advances_shut : Advances shop session session.shut := by
  have closed : Advances shop session (session.update (session.scheduler.close, [])) := by
    have stepped : session.scheduler.close =
        session.scheduler.step shop.hasReader (.event .close) := rfl
    exact advances_update rfl stepped
  exact closed.trans (.of_eq rfl rfl rfl rfl)

/-! ## Notifications -/

theorem Advances.notices (advances : Advances shop session next) :
    next.ready.filterMap Ready.notice? = session.ready.filterMap Ready.notice? := by
  obtain ⟨works, plain, queued⟩ := advances.ready
  rw [queued, List.filterMap_append, plain, List.append_nil]

theorem notices_apply (session : Session) (notice : Notice) :
    (session.apply notice).ready.filterMap Ready.notice? =
      session.ready.filterMap Ready.notice? := by
  obtain ⟨works, plain, queued⟩ := update_ready session (session.scheduler.notify notice, [])
  rw [Session.apply, queued, List.filterMap_append, plain, List.append_nil]

/-- A client sends a notification: one of its own, or by asking for hints. -/
def Sends (session : Session) (notice : Notice) : Prop :=
  (∀ path, notice ≠ .wanted path) ∨ ∃ path, session.wanted? path = some notice

theorem Sends.expected {notice : Notice} (sends : session.Sends notice) : notice.Expected := by
  rcases sends with own | ⟨path, wanted⟩
  · cases notice with
    | wanted path => exact absurd rfl (own path)
    | opened path text | edited path edits | changed path | deleted path => trivial
  · unfold wanted? at wanted
    split at wanted
    · next asked =>
      obtain rfl := Option.some.inj wanted
      exact (Bool.and_eq_true_iff.mp asked).2
    · simp at wanted

/-- The sessions to which their operations lead, in any order. -/
inductive Reached (shop : Workshop) (files : List (String × Content)) : Session → Prop
  | initial : Reached shop files (initial files)
  | enter {now : Session} (before : Reached shop files now) : Reached shop files now.enter
  | notify {now : Session} {notice : Notice} (before : Reached shop files now)
      (sends : now.Sends notice) : Reached shop files (now.notify notice)
  | post {now : Session} {notice : Notice} (before : Reached shop files now)
      (sends : now.Sends notice) : Reached shop files (now.post notice)
  | settle {now : Session} (before : Reached shop files now) : Reached shop files (settle shop now)
  | advance {now : Session} (before : Reached shop files now) (milliseconds : Nat) :
      Reached shop files (advance shop now milliseconds)
  | flush {now : Session} (before : Reached shop files now) : Reached shop files (flush shop now)
  | close {now : Session} (before : Reached shop files now) : Reached shop files (close shop now)
  | setGate {now : Session} (before : Reached shop files now) (name : GateName) (isOpen : Bool) :
      Reached shop files (now.setGate name isOpen)
  | write {now : Session} (before : Reached shop files now) (path : String) (content : Content) :
      Reached shop files (now.write path content)
  | unlink {now : Session} (before : Reached shop files now) (path : String) :
      Reached shop files (now.unlink path)
  | forget {now : Session} (before : Reached shop files now) (path : String) :
      Reached shop files (now.forget path)
  | takeEffects {now : Session} (before : Reached shop files now) :
      Reached shop files now.takeEffects.1

end Session

end Inlay
