import Inlay.Proofs.Lines

/-!
Notifications that several threads send to one service.

A call from another thread looks whether the service is bound and queues its notification only
later. The thread that runs the service binds it, takes what was held back and applies that piece
by piece. Whatever other threads do in between, the service has the notifications of the calls that
stand in line, the calls move on in line, and if no more of them begin, all can be applied.
-/

namespace Inlay

open Update State Session

namespace Delivery

/-- How far the thread that runs the service has come with a call of its own or, where there is no
call, with entering the service. -/
inductive Turn
  | binding (call : Option Call)
  | draining (call : Option Call)
  | applying (taken : List Call) (call : Option Call)

/-- What happens to a service apart from notifications and ready work. -/
inductive Errand
  | wake (time : Nat)
  | tick (time : Nat)
  | setGate (name : GateName) (isOpen : Bool)
  | write (path : String) (content : Content)
  | unlink (path : String)
  | forget (path : String)
  | shut
  | takeEffects

def Errand.run (session : Session) : Errand → Session
  | .wake time => session.wake time
  | .tick time => { session with clock := time }
  | .setGate name isOpen => session.setGate name isOpen
  | .write path content => session.write path content
  | .unlink path => session.unlink path
  | .forget path => session.forget path
  | .shut => session.shut
  | .takeEffects => session.takeEffects.1

theorem Errand.advances (shop : Workshop) (session : Session) (errand : Errand) :
    Advances shop session (errand.run session) := by
  cases errand with
  | wake time => exact advances_wake time
  | setGate name isOpen => exact advances_setGate name isOpen
  | forget path => exact advances_forget path
  | shut => exact advances_shut
  | tick | write | unlink | takeEffects => exact .of_eq rfl rfl rfl rfl

/-- What threads do without a break. -/
inductive Move
  /-- A call begins on another thread. -/
  | call (notice : Notice) (expected : notice.Expected)
  /-- One of those that have begun is held back, or finds the service bound. -/
  | look (place : Nat)
  /-- One of those that found the service bound is queued. -/
  | queue (place : Nat)
  /-- A call begins on the thread that runs the service, if that is free. -/
  | notify (notice : Notice) (expected : notice.Expected)
  /-- The thread that runs the service begins to enter it, if it is free. -/
  | enter
  /-- The thread that runs the service goes on with its call or with entering. -/
  | proceed
  /-- The thread that runs the service does the next piece of work, if it is free. -/
  | work
  | errand (errand : Errand)

/-- Whether a move begins a call. -/
def Move.begins : Move → Bool
  | .call _ _ | .notify _ _ => true
  | _ => false

end Delivery

open Delivery

/-- A service among threads that send it notifications. `held`, `queued` and `applied` tell which
calls the notifications in the backlog, in the ready work and in the past of the service are of. -/
structure Delivery where
  session : Session
  calls : List Call
  arriving : List Call
  passing : List Call
  turn : Option Turn
  held : List Call
  queued : List Call
  applied : List Call

namespace Delivery

def initial (files : List (String × Content)) : Delivery :=
  ⟨.initial files, [], [], [], none, [], [], []⟩

def call (now : Delivery) (notice : Notice) (expected : notice.Expected) : Delivery :=
  let call : Call := ⟨now.calls.length, false, notice, expected⟩
  { now with calls := now.calls ++ [call], arriving := now.arriving ++ [call] }

/-- A look at the service and what comes of it happen under one lock. -/
def look (now : Delivery) (place : Nat) : Delivery :=
  match now.arriving[place]? with
  | none => now
  | some call =>
    let now := { now with arriving := now.arriving.eraseIdx place }
    if now.session.bound then { now with passing := now.passing ++ [call] }
    else { now with session := now.session.post call.notice, held := now.held ++ [call] }

def queue (now : Delivery) (place : Nat) : Delivery :=
  match now.passing[place]? with
  | none => now
  | some call =>
    { now with
      passing := now.passing.eraseIdx place
      session := now.session.post call.notice
      queued := now.queued ++ [call] }

def notify (now : Delivery) (notice : Notice) (expected : notice.Expected) : Delivery :=
  match now.turn with
  | none =>
    let call : Call := ⟨now.calls.length, true, notice, expected⟩
    { now with calls := now.calls ++ [call], turn := some (.binding (some call)) }
  | some _ => now

def enter (now : Delivery) : Delivery :=
  match now.turn with
  | none => { now with turn := some (.binding none) }
  | some _ => now

def apply (now : Delivery) (call : Call) : Delivery :=
  { now with session := now.session.apply call.notice, applied := now.applied ++ [call] }

/-- The service is bound under the lock, and the backlog taken when the lock is got once more. -/
def proceed (now : Delivery) : Delivery :=
  match now.turn with
  | none => now
  | some (.binding call) =>
    { now with session := { now.session with bound := true }, turn := some (.draining call) }
  | some (.draining call) =>
    { now with
      session := { now.session with backlog := [] }
      held := []
      turn := some (.applying now.held call) }
  | some (.applying (next :: rest) call) =>
    { now.apply next with turn := some (.applying rest call) }
  | some (.applying [] (some call)) => { now.apply call with turn := none }
  | some (.applying [] none) => { now with turn := none }

section

variable (shop : Workshop)

def work (now : Delivery) : Delivery :=
  match now.turn, now.session.ready with
  | none, work :: rest =>
    let session := Session.perform shop { now.session with ready := rest } work
    match work with
    | .notice _ =>
      { now with
        session
        queued := now.queued.tail
        applied := now.applied ++ now.queued.take 1 }
    | _ => { now with session }
  | _, _ => now

def step (now : Delivery) : Move → Delivery
  | .call notice expected => now.call notice expected
  | .look place => now.look place
  | .queue place => now.queue place
  | .notify notice expected => now.notify notice expected
  | .enter => now.enter
  | .proceed => now.proceed
  | .work => now.work shop
  | .errand errand => { now with session := errand.run now.session }

def run (now : Delivery) (moves : List Move) : Delivery := moves.foldl (step shop) now

/-- The service and its threads after some moves. -/
def after (files : List (String × Content)) (moves : List Move) : Delivery :=
  (initial files).run shop moves

end

/-! ## Lines -/

/-- The calls taken from the backlog that are still to be applied. -/
def taken (now : Delivery) : List Call :=
  match now.turn with
  | some (.applying taken _) => taken
  | _ => []

/-- The call under way on the thread that runs the service. -/
def current (now : Delivery) : List Call :=
  match now.turn with
  | some (.binding call) | some (.draining call) | some (.applying _ call) => call.toList
  | none => []

def lines (now : Delivery) : Lines where
  front := now.applied ++ now.taken ++ now.held
  current := now.current
  queued := now.queued
  passing := now.passing
  arriving := now.arriving
  calls := now.calls

/-- The scheduler went through the notifications of these calls, in order. -/
def Ran (shop : Workshop) (session : Session) (applied : List Call) : Prop :=
  ∃ occurrences, session.scheduler = Scheduler.after shop.hasReader occurrences ∧
    noticesOf occurrences = applied.map Call.notice

/-- The calls are those of the service, and stand where they should. -/
structure Sound (shop : Workshop) (now : Delivery) : Prop where
  ran : Ran shop now.session now.applied
  held : now.session.backlog = now.held.map Call.notice
  queued : now.session.ready.filterMap Ready.notice? = now.queued.map Call.notice
  /-- Before the service is bound, calls are held back or have not got that far. -/
  unbound : now.session.bound = false → now.applied = [] ∧ now.queued = [] ∧ now.passing = [] ∧
    ∀ turn, now.turn = some turn → ∃ call, turn = .binding call
  /-- Once it is bound, what was held back is taken before anything is applied. -/
  bound : now.session.bound = true →
    now.held = [] ∨ now.applied = [] ∧ ∃ call, now.turn = some (.draining call)
  own : ∀ call ∈ now.current, call.own = true

variable {shop : Workshop} {now next : Delivery}

theorem Ran.apply {session : Session} {applied : List Call} (ran : Ran shop session applied)
    (call : Call) : Ran shop (session.apply call.notice) (applied ++ [call]) := by
  obtain ⟨past, reached, notices⟩ := ran
  refine ⟨past ++ [.event (.notice call.notice)], ?_, ?_⟩
  · rw [Scheduler.after_append, ← reached]
    exact Scheduler.notify_eq_step shop.hasReader session.scheduler call.expected
  · rw [noticesOf_append, notices, List.map_append]
    rfl

theorem Ran.advance {session next : Session} {applied : List Call}
    (ran : Ran shop session applied) (advances : Advances shop session next) :
    Ran shop next applied := by
  obtain ⟨past, reached, notices⟩ := ran
  obtain ⟨occurrences, quiet, reached'⟩ := advances.run
  refine ⟨past ++ occurrences, ?_, ?_⟩
  · rw [reached', reached, Scheduler.after_append]
  · rw [noticesOf_append, notices, quiet, List.append_nil]

theorem Sound.bound_of_turn (sound : now.Sound shop) {turn : Turn} (begun : now.turn = some turn)
    (further : ∀ call, turn ≠ .binding call) : now.session.bound = true := by
  by_contra unbound
  obtain ⟨_, _, _, binding⟩ := sound.unbound (Bool.eq_false_iff.mpr unbound)
  obtain ⟨call, same⟩ := binding turn begun
  exact further call same

theorem Sound.held_eq_nil (sound : now.Sound shop) (bound : now.session.bound = true)
    (elsewhere : ∀ call, now.turn ≠ some (.draining call)) : now.held = [] := by
  rcases sound.bound bound with drained | ⟨_, call, draining⟩
  · exact drained
  · exact absurd draining (elsewhere call)

/-- Nothing is applied while calls are held back. -/
theorem Sound.held_or_applied (sound : now.Sound shop) : now.held = [] ∨ now.applied = [] := by
  cases bound : now.session.bound with
  | false => exact .inr (sound.unbound bound).1
  | true => exact (sound.bound bound).imp_right And.left

/-- Of a bound service there is nothing to say about how it was before. -/
theorem Sound.of_bound (bound : now.session.bound = true) (ran : Ran shop now.session now.applied)
    (held : now.session.backlog = now.held.map Call.notice)
    (queued : now.session.ready.filterMap Ready.notice? = now.queued.map Call.notice)
    (drained : now.held = [] ∨ now.applied = [] ∧ ∃ call, now.turn = some (.draining call))
    (own : ∀ call ∈ now.current, call.own = true) : now.Sound shop where
  ran := ran
  held := held
  queued := queued
  unbound unbound := Bool.noConfusion (bound.symm.trans unbound)
  bound _ := drained
  own := own

/-! ## What a move does -/

/-- One move after the other. A bound service stays bound. -/
structure Follows (shop : Workshop) (now next : Delivery) : Prop where
  sound : next.Sound shop
  shift : Lines.Shift now.lines next.lines
  bound : now.session.bound = true → next.session.bound = true

theorem follows_refl (sound : now.Sound shop) : Follows shop now now :=
  ⟨sound, .stay _, id⟩

theorem sound_initial (files : List (String × Content)) : (initial files).Sound shop where
  ran := ⟨[], rfl, rfl⟩
  held := rfl
  queued := rfl
  unbound _ := ⟨rfl, rfl, rfl, by simp [initial]⟩
  bound _ := .inl rfl
  own := by simp [initial, current]

theorem follows_advance (sound : now.Sound shop) {session : Session}
    (advances : Advances shop now.session session) :
    Follows shop now { now with session } where
  sound :=
    { ran := sound.ran.advance advances
      held := advances.backlog.trans sound.held
      queued := advances.notices.trans sound.queued
      unbound := fun unbound => sound.unbound (advances.bound.symm.trans unbound)
      bound := fun bound => sound.bound (advances.bound.symm.trans bound)
      own := sound.own }
  shift := .stay _
  bound bound := advances.bound.trans bound

theorem exists_split {calls : List Call} {place : Nat} {call : Call}
    (found : calls[place]? = some call) :
    ∃ before after, calls = before ++ call :: after ∧ calls.eraseIdx place = before ++ after := by
  obtain ⟨inside, rfl⟩ := List.getElem?_eq_some_iff.mp found
  refine ⟨calls.take place, calls.drop (place + 1), ?_, List.eraseIdx_eq_take_drop_succ _ _⟩
  rw [← List.drop_eq_getElem_cons inside, List.take_append_drop]

theorem follows_look (sound : now.Sound shop) (place : Nat) :
    Follows shop now (now.look place) := by
  unfold look
  split
  · exact follows_refl sound
  · next call found =>
    obtain ⟨before, after, arriving, erased⟩ := exists_split found
    simp only [erased]
    split
    · next bound =>
      exact ⟨.of_bound bound sound.ran sound.held sound.queued (sound.bound bound) sound.own,
        .pass now.lines arriving, fun _ => bound⟩
    · next unbound =>
      obtain ⟨_, queued, _, _⟩ := sound.unbound (Bool.eq_false_iff.mpr unbound)
      have posted : now.session.post call.notice =
          { now.session with backlog := now.session.backlog ++ [call.notice] } :=
        if_neg unbound
      rw [posted]
      refine ⟨⟨sound.ran, ?_, sound.queued, sound.unbound, ?_, sound.own⟩, ?_, ?_⟩
      · rw [List.map_append, ← sound.held]
        rfl
      · exact fun bound => absurd bound unbound
      · have shift := Lines.Shift.hold now.lines arriving queued
        simp only [lines, List.append_assoc] at shift ⊢
        exact shift
      · exact fun bound => absurd bound unbound

theorem follows_queue (sound : now.Sound shop) (place : Nat) :
    Follows shop now (now.queue place) := by
  unfold queue
  split
  · exact follows_refl sound
  · next call found =>
    obtain ⟨before, after, passing, erased⟩ := exists_split found
    have bound : now.session.bound = true := by
      by_contra unbound
      obtain ⟨_, _, none, _⟩ := sound.unbound (Bool.eq_false_iff.mpr unbound)
      simp [none] at passing
    have posted : now.session.post call.notice =
        { now.session with ready := now.session.ready ++ [.notice call.notice] } :=
      if_pos bound
    rw [posted, erased]
    refine ⟨.of_bound bound sound.ran sound.held ?_ (sound.bound bound) sound.own,
      .queue now.lines passing, fun _ => bound⟩
    rw [List.filterMap_append, sound.queued, List.map_append]
    rfl

theorem follows_proceed (sound : now.Sound shop) : Follows shop now now.proceed := by
  have own := sound.own
  unfold proceed
  split
  · exact follows_refl sound
  · next call turn =>
    simp only [current, turn] at own
    refine ⟨.of_bound rfl sound.ran sound.held sound.queued ?_ own, ?_, ?_⟩
    · exact sound.held_or_applied.imp_right fun none => ⟨none, call, rfl⟩
    · simp only [lines, taken, current, turn]
      exact .stay _
    · exact fun _ => rfl
  · next call turn =>
    have bound := sound.bound_of_turn turn (by simp)
    simp only [current, turn] at own
    refine ⟨.of_bound bound sound.ran rfl sound.queued (.inl rfl) own, ?_, ?_⟩
    · simp only [lines, taken, current, turn, List.append_nil]
      exact .stay _
    · exact fun _ => bound
  · next next rest call turn =>
    have bound := sound.bound_of_turn turn (by simp)
    have held := sound.held_eq_nil bound (by simp [turn])
    have queued := (notices_apply now.session next.notice).trans sound.queued
    simp only [current, turn] at own
    refine ⟨.of_bound bound (sound.ran.apply next) sound.held queued (.inl held) own, ?_, ?_⟩
    · simp only [lines, taken, current, turn, apply, List.append_assoc, List.singleton_append]
      exact .stay _
    · exact fun _ => bound
  · next call turn =>
    have bound := sound.bound_of_turn turn (by simp)
    have held := sound.held_eq_nil bound (by simp [turn])
    have queued := (notices_apply now.session call.notice).trans sound.queued
    have mine : call.own = true := own call (by simp [current, turn])
    refine ⟨.of_bound bound (sound.ran.apply call) sound.held queued (.inl held) ?_, ?_, ?_⟩
    · simp [current]
    · have shift := @Lines.Shift.finish now.lines call (by simp [lines, current, turn]) mine
      simpa [lines, taken, current, turn, apply, held] using shift
    · exact fun _ => bound
  · next turn =>
    have bound := sound.bound_of_turn turn (by simp)
    have held := sound.held_eq_nil bound (by simp [turn])
    refine ⟨.of_bound bound sound.ran sound.held sound.queued (.inl held) ?_, ?_, ?_⟩
    · simp [current]
    · simp only [lines, taken, current, turn]
      exact .stay _
    · exact fun _ => bound

/-- Work that is no notification is done. -/
theorem follows_job (sound : now.Sound shop) (rest : List Ready) {session : Session}
    (waiting : rest.filterMap Ready.notice? = now.queued.map Call.notice)
    (advances : Advances shop { now.session with ready := rest } session) :
    Follows shop now { now with session } := by
  have rested : Sound shop { now with session := { now.session with ready := rest } } :=
    ⟨sound.ran, sound.held, waiting, sound.unbound, sound.bound, sound.own⟩
  have followed := follows_advance rested advances
  exact ⟨followed.sound, followed.shift, followed.bound⟩

theorem follows_work (sound : now.Sound shop) : Follows shop now (now.work shop) := by
  unfold work
  split
  · next work rest turn ready =>
    have waiting := sound.queued
    rw [ready] at waiting
    cases work with
    | notice notice =>
      obtain ⟨call, later, queued, rfl, behind⟩ := List.map_eq_cons_iff.mp waiting.symm
      have bound : now.session.bound = true := by
        by_contra unbound
        obtain ⟨_, none, _, _⟩ := sound.unbound (Bool.eq_false_iff.mpr unbound)
        simp [none] at queued
      have held := sound.held_eq_nil bound (by simp [turn])
      simp only [queued, List.tail_cons, List.take_succ_cons, List.take_zero]
      refine ⟨.of_bound bound (sound.ran.apply call) sound.held ?_ (.inl held) sound.own, ?_,
        fun _ => bound⟩
      · exact (notices_apply _ _).trans behind.symm
      · have shift := Lines.Shift.work now.lines queued (by simp [lines, current, turn])
        simpa [lines, taken, current, turn, held] using shift
    | start id => exact follows_job sound rest waiting (advances_start id)
    | resume id => exact follows_job sound rest waiting (advances_resume id)
  · exact follows_refl sound

/-- A free thread turns to the service, with a call or without. -/
theorem sound_binding (sound : now.Sound shop) (free : now.turn = none) {call : Option Call}
    (own : ∀ mine ∈ call.toList, mine.own = true) (calls : List Call) :
    Sound shop { now with calls, turn := some (.binding call) } := by
  refine ⟨sound.ran, sound.held, sound.queued, fun unbound => ?_, fun bound => ?_, own⟩
  · obtain ⟨applied, queued, passing, _⟩ := sound.unbound unbound
    refine ⟨applied, queued, passing, ?_⟩
    intro turn same
    exact ⟨call, (Option.some.inj same).symm⟩
  · exact .inl (sound.held_eq_nil bound (by simp [free]))

theorem follows_notify (sound : now.Sound shop) {notice : Notice} (expected : notice.Expected) :
    Follows shop now (now.notify notice expected) := by
  unfold notify
  split
  · next free =>
    refine ⟨sound_binding sound free (by simp) _, ?_,
      id⟩
    have shift := Lines.Shift.begin now.lines ⟨now.calls.length, true, notice, expected⟩
      (by simp [lines, current, free]) rfl
    simpa [lines, taken, current, free] using shift
  · exact follows_refl sound

theorem follows_enter (sound : now.Sound shop) : Follows shop now now.enter := by
  unfold enter
  split
  · next free =>
    refine ⟨sound_binding sound free (by simp) now.calls, ?_,
      id⟩
    simp only [lines, taken, current, free]
    exact .stay _
  · exact follows_refl sound

/-- Whatever move comes next, the calls stay those of the service and move on in line. -/
theorem follows_step (sound : now.Sound shop) (move : Move) :
    Follows shop now (now.step shop move) := by
  cases move with
  | call notice expected =>
    exact ⟨⟨sound.ran, sound.held, sound.queued, sound.unbound, sound.bound, sound.own⟩,
      .arrive now.lines _ rfl, id⟩
  | look place => exact follows_look sound place
  | queue place => exact follows_queue sound place
  | notify notice expected => exact follows_notify sound expected
  | enter => exact follows_enter sound
  | proceed => exact follows_proceed sound
  | work => exact follows_work sound
  | errand errand => exact follows_advance sound (errand.advances shop now.session)

/-! ## Runs -/

theorem run_append (now : Delivery) (earlier later : List Move) :
    now.run shop (earlier ++ later) = (now.run shop earlier).run shop later :=
  List.foldl_append

theorem after_append (files : List (String × Content)) (earlier later : List Move) :
    after shop files (earlier ++ later) = (after shop files earlier).run shop later :=
  List.foldl_append

theorem run_cons (now : Delivery) (move : Move) (moves : List Move) :
    now.run shop (move :: moves) = (now.step shop move).run shop moves :=
  rfl

/-- Any number of moves one after the other. -/
structure Leads (shop : Workshop) (now next : Delivery) : Prop where
  sound : next.Sound shop
  shifts : Lines.Shifts now.lines next.lines
  bound : now.session.bound = true → next.session.bound = true

theorem leads_run (sound : now.Sound shop) (moves : List Move) :
    Leads shop now (now.run shop moves) := by
  induction moves generalizing now with
  | nil => exact ⟨sound, .refl, id⟩
  | cons move moves ih =>
    have first := follows_step sound move
    have rest := ih first.sound
    exact ⟨rest.sound, .head first.shift rest.shifts, rest.bound ∘ first.bound⟩

theorem leads_after (shop : Workshop) (files : List (String × Content)) (moves : List Move) :
    Leads shop (initial files) (after shop files moves) :=
  leads_run (sound_initial files) moves

theorem counted_after (shop : Workshop) (files : List (String × Content)) (moves : List Move) :
    (after shop files moves).lines.Counted :=
  (leads_after shop files moves).shifts.counted ⟨rfl, .refl _⟩

theorem leads_of_begins (shop : Workshop) (files : List (String × Content))
    {earlier moves : List Move} (begins : earlier <+: moves) :
    Leads shop (after shop files earlier) (after shop files moves) := by
  obtain ⟨later, rfl⟩ := begins
  rw [after_append]
  exact leads_run (leads_after shop files earlier).sound later

theorem applied_begins_front (now : Delivery) : now.applied <+: now.lines.front := by
  simp only [lines, List.append_assoc]
  exact List.prefix_append _ _

/-! ## Coming to rest -/

/-- The calls of other threads that have not returned. -/
def pending (now : Delivery) : List Call := now.passing ++ now.arriving

/-- The service is bound, no call is under way, and none waits to be applied. -/
structure Settled (now : Delivery) : Prop where
  bound : now.session.bound = true
  free : now.turn = none
  returned : now.pending = []
  queued : now.queued = []

theorem Settled.all_eq (settled : now.Settled) (sound : now.Sound shop) :
    now.lines.all = now.applied := by
  have held := sound.held_eq_nil settled.bound (by simp [settled.free])
  obtain ⟨passing, arriving⟩ := List.append_eq_nil_iff.mp settled.returned
  simp [Lines.all, lines, taken, current, held, settled.free, settled.queued, passing, arriving]

theorem step_calls {move : Move} (quiet : move.begins = false) :
    (now.step shop move).calls = now.calls := by
  cases move with
  | call | notify => simp [Move.begins] at quiet
  | look place =>
    simp only [step, look]
    split
    · rfl
    · split <;> rfl
  | queue place =>
    simp only [step, queue]
    split <;> rfl
  | enter =>
    simp only [step, enter]
    split <;> rfl
  | proceed =>
    simp only [step, proceed]
    split <;> rfl
  | work =>
    simp only [step, work]
    split
    · split <;> rfl
    · rfl
  | errand => rfl

theorem run_calls {moves : List Move} (quiet : ∀ move ∈ moves, move.begins = false) :
    (now.run shop moves).calls = now.calls := by
  induction moves generalizing now with
  | nil => rfl
  | cons move moves ih =>
    rw [run_cons, ih fun other member => quiet other (List.mem_cons_of_mem move member)]
    exact step_calls (quiet move List.mem_cons_self)

/-- Moves of which none begins a call lead from one to the other. -/
def Quietly (shop : Workshop) (now next : Delivery) : Prop :=
  ∃ moves, (∀ move ∈ moves, move.begins = false) ∧ now.run shop moves = next

theorem quietly_refl (now : Delivery) : Quietly shop now now := ⟨[], by simp, rfl⟩

theorem quietly_step {move : Move} (quiet : move.begins = false)
    (rest : Quietly shop (now.step shop move) next) : Quietly shop now next := by
  obtain ⟨moves, quiet', rfl⟩ := rest
  exact ⟨move :: moves, List.forall_mem_cons.mpr ⟨quiet, quiet'⟩, rfl⟩

theorem Quietly.trans {last : Delivery} (first : Quietly shop now next)
    (second : Quietly shop next last) : Quietly shop now last := by
  obtain ⟨moves, quiet, rfl⟩ := first
  obtain ⟨more, quiet', rfl⟩ := second
  refine ⟨moves ++ more, ?_, run_append now moves more⟩
  intro move member
  rcases List.mem_append.mp member with early | late
  · exact quiet move early
  · exact quiet' move late

theorem Quietly.leads (quietly : Quietly shop now next) (sound : now.Sound shop) :
    Leads shop now next := by
  obtain ⟨moves, _, rfl⟩ := quietly
  exact leads_run sound moves

theorem look_arriving (now : Delivery) : (now.look 0).arriving = now.arriving.tail := by
  simp only [look]
  split
  · next none => simp_all
  · split <;> simp

theorem queue_pending (now : Delivery) :
    (now.queue 0).passing = now.passing.tail ∧ (now.queue 0).arriving = now.arriving := by
  unfold queue
  split
  · next none => simp_all
  · simp

theorem exists_looked (shop : Workshop) (now : Delivery) :
    ∃ next, Quietly shop now next ∧ next.arriving = [] := by
  generalize arriving : now.arriving = calls
  induction calls generalizing now with
  | nil => exact ⟨now, quietly_refl now, arriving⟩
  | cons call rest ih =>
    obtain ⟨next, quietly, empty⟩ := ih (now.look 0) (by rw [look_arriving, arriving]; rfl)
    exact ⟨next, @quietly_step _ _ _ (.look 0) rfl quietly, empty⟩

/-- The calls of other threads can return, whatever the service is doing. -/
theorem exists_returned (shop : Workshop) (now : Delivery) :
    ∃ next, Quietly shop now next ∧ next.pending = [] := by
  obtain ⟨looked, quietly, arriving⟩ := exists_looked shop now
  suffices queued : ∃ next, Quietly shop looked next ∧ next.pending = [] by
    obtain ⟨next, quietly', returned⟩ := queued
    exact ⟨next, quietly.trans quietly', returned⟩
  clear quietly
  generalize passing : looked.passing = calls
  induction calls generalizing looked with
  | nil => exact ⟨looked, quietly_refl looked, by rw [pending, passing, arriving]; rfl⟩
  | cons call rest ih =>
    obtain ⟨less, same⟩ := queue_pending looked
    obtain ⟨next, quietly, returned⟩ := ih (looked.queue 0) (same.trans arriving)
      (by rw [less, passing]; rfl)
    exact ⟨next, @quietly_step _ _ _ (.queue 0) rfl quietly, returned⟩

theorem enter_pending (now : Delivery) : now.enter.pending = now.pending := by
  unfold enter
  split <;> rfl

theorem proceed_pending (now : Delivery) : now.proceed.pending = now.pending := by
  unfold proceed
  split <;> rfl

/-- The thread that runs the service comes to the end of what it does. -/
theorem exists_free (shop : Workshop) (now : Delivery) :
    ∃ next, Quietly shop now next ∧ next.turn = none ∧ next.pending = now.pending := by
  have further : ∀ now : Delivery,
      (∃ next, Quietly shop now.proceed next ∧ next.turn = none ∧
        next.pending = now.proceed.pending) →
        ∃ next, Quietly shop now next ∧ next.turn = none ∧ next.pending = now.pending := by
    rintro now ⟨next, quietly, free, kept⟩
    exact ⟨next, @quietly_step _ _ _ .proceed rfl quietly, free,
      kept.trans (proceed_pending now)⟩
  have applied : ∀ (taken : List Call) (call : Option Call) (now : Delivery),
      now.turn = some (.applying taken call) →
        ∃ next, Quietly shop now next ∧ next.turn = none ∧ next.pending = now.pending := by
    intro taken call
    induction taken with
    | nil =>
      intro now turn
      refine further now ⟨now.proceed, quietly_refl _, ?_, rfl⟩
      cases call <;> simp [proceed, turn]
    | cons next rest ih =>
      intro now turn
      refine further now (ih now.proceed ?_)
      simp [proceed, turn]
  cases turn : now.turn with
  | none => exact ⟨now, quietly_refl now, turn, rfl⟩
  | some stage =>
    cases stage with
    | binding call =>
      refine further _ (further _ (applied now.held call _ ?_))
      simp [proceed, turn]
    | draining call =>
      refine further _ (applied now.held call _ ?_)
      simp [proceed, turn]
    | applying taken call => exact applied taken call now turn

/-- Entering the service binds it, whether it was bound before or not. -/
theorem exists_entered (sound : now.Sound shop) (free : now.turn = none) :
    ∃ next, Quietly shop now next ∧ next.session.bound = true ∧ next.turn = none ∧
      next.pending = now.pending := by
  have entered : Quietly shop now now.enter.proceed :=
    @quietly_step _ _ _ .enter rfl (@quietly_step _ _ _ .proceed rfl (quietly_refl _))
  have bound : now.enter.proceed.session.bound = true := by simp [enter, proceed, free]
  obtain ⟨next, quietly, free', kept⟩ := exists_free shop now.enter.proceed
  have leads := quietly.leads (entered.leads sound).sound
  refine ⟨next, entered.trans quietly, leads.bound bound, free', ?_⟩
  rw [kept, proceed_pending, enter_pending]

theorem work_keeps (shop : Workshop) (now : Delivery) :
    (now.work shop).turn = now.turn ∧ (now.work shop).pending = now.pending := by
  unfold work
  split
  · split <;> exact ⟨rfl, rfl⟩
  · exact ⟨rfl, rfl⟩

theorem work_ready (shop : Workshop) {work : Ready} {rest : List Ready} (free : now.turn = none)
    (ready : now.session.ready = work :: rest) :
    ∃ more, more.filterMap Ready.notice? = [] ∧
      (now.work shop).session.ready = rest ++ more := by
  simp only [Delivery.work, free, ready]
  cases work with
  | notice notice => exact update_ready _ _
  | start id => exact (advances_start id).ready
  | resume id => exact (advances_resume id).ready

/-- A free thread gets through the work that is ready. What becomes ready meanwhile holds no
notification. -/
theorem exists_worked (shop : Workshop) {works plain : List Ready} (free : now.turn = none)
    (quiet : plain.filterMap Ready.notice? = []) (ready : now.session.ready = works ++ plain) :
    ∃ next, Quietly shop now next ∧ next.turn = none ∧ next.pending = now.pending ∧
      next.session.ready.filterMap Ready.notice? = [] := by
  induction works generalizing now plain with
  | nil =>
    rw [List.nil_append] at ready
    exact ⟨now, quietly_refl now, free, rfl, (congrArg _ ready).trans quiet⟩
  | cons work works ih =>
    obtain ⟨more, quiet', ready'⟩ := work_ready shop free ready
    obtain ⟨free', kept⟩ := work_keeps shop now
    have plain' : (plain ++ more).filterMap Ready.notice? = [] := by
      rw [List.filterMap_append, quiet, quiet']
      rfl
    obtain ⟨next, quietly, free'', kept', none⟩ :=
      ih (free'.trans free) plain' (ready'.trans (List.append_assoc _ _ _))
    exact ⟨next, @quietly_step _ _ _ .work rfl quietly, free'', kept'.trans kept, none⟩

/-- If no more calls begin, all can be applied. -/
theorem exists_settled (sound : now.Sound shop) : ∃ next, Quietly shop now next ∧ next.Settled := by
  obtain ⟨returned, first, none⟩ := exists_returned shop now
  obtain ⟨idle, second, free, kept⟩ := exists_free shop returned
  have toIdle := first.trans second
  obtain ⟨entered, third, bound, free', kept'⟩ := exists_entered (toIdle.leads sound).sound free
  have toEntered := toIdle.trans third
  obtain ⟨next, fourth, free'', kept'', worked⟩ :=
    exists_worked shop free' List.filterMap_nil (List.append_nil _).symm
  have leads := fourth.leads (toEntered.leads sound).sound
  refine ⟨next, toEntered.trans fourth, leads.bound bound, free'', ?_, ?_⟩
  · rw [kept'', kept', kept, none]
  · exact List.map_eq_nil_iff.mp (leads.sound.queued.symm.trans worked)

end Delivery

end Inlay
