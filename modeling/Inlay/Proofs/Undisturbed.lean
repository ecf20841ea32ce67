import Inlay.Proofs.Delivery

/-!
Operations that nobody disturbs.

An operation of a session is a run of moves in which no other call comes in between. Every session
is thus among those that threads bring about, with calls that follow one upon the other, and goes
through one of the runs of the updates. What holds after every list of events holds of every
session.
-/

namespace Inlay.Delivery

open Update State Session

/-- Each call begins after those before it have returned. -/
def Sequential (shop : Workshop) : Delivery → List Move → Prop
  | _, [] => True
  | now, move :: moves =>
    (move.begins = true → now.lines.underWay = []) ∧ Sequential shop (now.step shop move) moves

instance decidableSequential (shop : Workshop) :
    ∀ (now : Delivery) (moves : List Move), Decidable (Sequential shop now moves)
  | _, [] => .isTrue trivial
  | now, move :: moves =>
    have := decidableSequential shop (now.step shop move) moves
    inferInstanceAs (Decidable (_ ∧ _))

variable {shop : Workshop} {now next : Delivery}

theorem sequential_of_quiet {moves : List Move} (quiet : ∀ move ∈ moves, move.begins = false) :
    Sequential shop now moves := by
  induction moves generalizing now with
  | nil => trivial
  | cons move moves ih =>
    obtain ⟨first, rest⟩ := List.forall_mem_cons.mp quiet
    exact ⟨fun begins => absurd (first.symm.trans begins) Bool.false_ne_true, ih rest⟩

theorem Sequential.append {moves more : List Move} (first : Sequential shop now moves)
    (second : Sequential shop (now.run shop moves) more) :
    Sequential shop now (moves ++ more) := by
  induction moves generalizing now with
  | nil => exact second
  | cons move moves ih => exact ⟨first.1, ih first.2 second⟩

/-- No call is under way, and the thread that runs the service is free. -/
structure Idle (now : Delivery) : Prop where
  free : now.turn = none
  returned : now.pending = []

theorem Idle.underWay (idle : now.Idle) : now.lines.underWay = [] := by
  have none : now.current = [] := by simp [current, idle.free]
  simp only [Lines.underWay, lines, none, List.nil_append]
  exact idle.returned

/-- Calls that follow one upon the other lead from one session to the other. -/
def Plays (shop : Workshop) (session later : Session) : Prop :=
  ∀ now : Delivery, now.Sound shop → now.Idle → now.session = session →
    ∃ moves, Sequential shop now moves ∧ (now.run shop moves).Idle ∧
      (now.run shop moves).session = later

variable {session later last : Session}

theorem plays_refl (session : Session) : Plays shop session session :=
  fun _ _ idle same => ⟨[], trivial, idle, same⟩

theorem Plays.trans (first : Plays shop session later) (second : Plays shop later last) :
    Plays shop session last := by
  intro now sound idle same
  obtain ⟨moves, sequential, idle', same'⟩ := first now sound idle same
  obtain ⟨more, sequential', idle'', same''⟩ :=
    second _ (leads_run sound moves).sound idle' same'
  refine ⟨moves ++ more, sequential.append sequential', ?_⟩
  rw [run_append]
  exact ⟨idle'', same''⟩

/-! ## Work and time -/

theorem plays_errand (session : Session) (errand : Errand) :
    Plays shop session (errand.run session) := by
  rintro now _ ⟨free, returned⟩ rfl
  exact ⟨[.errand errand], sequential_of_quiet (by simp [Move.begins]), ⟨free, returned⟩, rfl⟩

theorem plays_work {work : Ready} {rest : List Ready} (ready : session.ready = work :: rest) :
    Plays shop session (perform shop { session with ready := rest } work) := by
  rintro now _ ⟨free, returned⟩ rfl
  obtain ⟨turn, pending⟩ := work_keeps shop now
  refine ⟨[.work], sequential_of_quiet (by simp [Move.begins]),
    ⟨turn.trans free, pending.trans returned⟩, ?_⟩
  change (now.work shop).session = _
  simp only [Delivery.work, free, ready]
  cases work <;> rfl

theorem plays_run (fuel : Nat) (session : Session) :
    Plays shop session (Session.run shop fuel session) := by
  induction fuel generalizing session with
  | zero => exact plays_refl session
  | succ fuel ih =>
    unfold Session.run
    split
    · exact plays_refl session
    · next work rest ready => exact (plays_work ready).trans (ih _)

theorem plays_elapse (limit : Option Nat) (fuel : Nat) (session : Session) :
    Plays shop session (elapse shop limit fuel session) := by
  induction fuel generalizing session with
  | zero => exact plays_refl session
  | succ fuel ih =>
    unfold Session.elapse
    split
    · exact plays_refl session
    · split
      · exact plays_refl session
      · next time _ _ =>
        have woken : Plays shop session (session.wake time) := plays_errand session (.wake time)
        exact (woken.trans (plays_run _ _)).trans (ih _)

theorem plays_close (session : Session) : Plays shop session (close shop session) := by
  have shut : Plays shop session session.shut := plays_errand session .shut
  change Plays shop session (if session.scheduler.isIdle then session.shut
    else Session.settle shop session.shut)
  split
  · exact shut
  · exact shut.trans (plays_run _ _)

/-! ## Notifications -/

theorem plays_post {notice : Notice} (session : Session) (expected : notice.Expected) :
    Plays shop session (session.post notice) := by
  rintro now _ idle rfl
  obtain ⟨passing, arriving⟩ := List.append_eq_nil_iff.mp idle.returned
  have sequential : ∀ moves : List Move, (∀ move ∈ moves, move.begins = false) →
      Sequential shop now (.call notice expected :: moves) :=
    fun moves quiet => ⟨fun _ => idle.underWay, sequential_of_quiet quiet⟩
  cases bound : now.session.bound with
  | false =>
    refine ⟨[.call notice expected, .look 0], sequential _ (by simp [Move.begins]), ⟨?_, ?_⟩, ?_⟩
    all_goals simp [run, step, call, look, bound, passing, arriving, pending, idle.free]
  | true =>
    refine ⟨[.call notice expected, .look 0, .queue 0], sequential _ (by simp [Move.begins]),
      ⟨?_, ?_⟩, ?_⟩
    all_goals simp [run, step, call, look, queue, bound, passing, arriving, pending, idle.free]

/-- The thread that runs the service binds it and applies what was held back. -/
theorem exists_drained (sound : now.Sound shop) {call : Option Call}
    (turn : now.turn = some (.binding call)) :
    ∃ next, Quietly shop now next ∧ next.turn = some (.applying [] call) ∧
      next.session = now.session.enter ∧ next.pending = now.pending := by
  have applied : ∀ (taken : List Call) (now : Delivery),
      now.turn = some (.applying taken call) →
        ∃ next, Quietly shop now next ∧ next.turn = some (.applying [] call) ∧
          next.session = (taken.map Call.notice).foldl Session.apply now.session ∧
            next.pending = now.pending := by
    intro taken
    induction taken with
    | nil => exact fun now turn => ⟨now, quietly_refl now, turn, rfl, rfl⟩
    | cons first rest ih =>
      intro now turn
      have proceeded :
          now.proceed = { now.apply first with turn := some (.applying rest call) } := by
        simp [proceed, turn]
      obtain ⟨next, quietly, turn', session, kept⟩ := ih now.proceed (by rw [proceeded])
      refine ⟨next, @quietly_step _ _ _ .proceed rfl quietly, turn', ?_,
        kept.trans (proceed_pending now)⟩
      rw [session, proceeded]
      rfl
  have bound : now.proceed =
      { now with
        session := { now.session with bound := true }
        turn := some (.draining call) } := by
    simp [proceed, turn]
  have drained : now.proceed.proceed.turn = some (.applying now.held call) ∧
      now.proceed.proceed.session = { now.session with bound := true, backlog := [] } := by
    rw [bound]
    exact ⟨rfl, rfl⟩
  obtain ⟨next, quietly, turn', session, kept⟩ := applied now.held now.proceed.proceed drained.1
  refine ⟨next, @quietly_step _ _ _ .proceed rfl (@quietly_step _ _ _ .proceed rfl quietly),
    turn', ?_, ?_⟩
  · rw [session, drained.2, ← sound.held]
    rfl
  · rw [kept, proceed_pending, proceed_pending]

/-- Having applied what was held back, the thread comes to its own call, if there is one. -/
theorem exists_finished (sound : now.Sound shop) {call : Option Call}
    (turn : now.turn = some (.binding call)) (returned : now.pending = []) :
    ∃ next, Quietly shop now next ∧ next.Idle ∧
      next.session = call.toList.foldl (fun session call => session.apply call.notice)
        now.session.enter := by
  obtain ⟨drained, quietly, turn', session, kept⟩ := exists_drained sound turn
  have last : Quietly shop drained drained.proceed :=
    @quietly_step _ _ _ .proceed rfl (quietly_refl _)
  refine ⟨drained.proceed, quietly.trans last, ⟨?_, ?_⟩, ?_⟩
  · cases call <;> simp [proceed, turn']
  · rw [proceed_pending, kept, returned]
  · cases call <;> simp [proceed, turn', session, apply]

theorem plays_enter (session : Session) : Plays shop session session.enter := by
  rintro now sound idle rfl
  have entered : now.enter = { now with turn := some (.binding none) } := by
    simp [Delivery.enter, idle.free]
  obtain ⟨next, ⟨moves, quiet, rfl⟩, idle', session⟩ := exists_finished
    (follows_enter sound).sound (by rw [entered]) ((enter_pending now).trans idle.returned)
  refine ⟨.enter :: moves, ⟨fun begins => ?_, sequential_of_quiet quiet⟩, idle', session.trans ?_⟩
  · simp [Move.begins] at begins
  · rw [entered]
    rfl

theorem plays_notify {notice : Notice} (session : Session) (expected : notice.Expected) :
    Plays shop session (session.notify notice) := by
  rintro now sound idle rfl
  let call : Call := ⟨now.calls.length, true, notice, expected⟩
  have begun : now.notify notice expected =
      { now with calls := now.calls ++ [call], turn := some (.binding (some call)) } := by
    simp [Delivery.notify, idle.free, call]
  obtain ⟨next, ⟨moves, quiet, rfl⟩, idle', session⟩ := exists_finished
    (follows_notify sound expected).sound (by rw [begun]) (by rw [begun]; exact idle.returned)
  refine ⟨.notify notice expected :: moves, ⟨fun _ => idle.underWay, sequential_of_quiet quiet⟩,
    idle', session.trans ?_⟩
  rw [begun]
  rfl

/-- Every session is one that threads bring about with calls that follow one upon the other. -/
theorem exists_moves_of_reached {files : List (String × Content)}
    (reached : Session.Reached shop files session) :
    ∃ moves, Sequential shop (initial files) moves ∧ (after shop files moves).Idle ∧
      (after shop files moves).session = session := by
  suffices plays : Plays shop (Session.initial files) session from
    plays (initial files) (sound_initial files) ⟨rfl, rfl⟩ rfl
  induction reached with
  | initial => exact plays_refl _
  | enter _ ih => exact ih.trans (plays_enter _)
  | notify _ sends ih => exact ih.trans (plays_notify _ sends.expected)
  | post _ sends ih => exact ih.trans (plays_post _ sends.expected)
  | settle _ ih => exact ih.trans (plays_run _ _)
  | advance _ milliseconds ih =>
    exact ((ih.trans (plays_run _ _)).trans (plays_elapse _ _ _)).trans (plays_errand _ (.tick _))
  | flush _ ih =>
    simp only [Session.flush]
    split
    · exact ih
    · exact (ih.trans (plays_run _ _)).trans (plays_elapse _ _ _)
  | close _ ih => exact ih.trans (plays_close _)
  | setGate _ name isOpen ih => exact ih.trans (plays_errand _ (.setGate name isOpen))
  | write _ path content ih => exact ih.trans (plays_errand _ (.write path content))
  | unlink _ path ih => exact ih.trans (plays_errand _ (.unlink path))
  | forget _ path ih => exact ih.trans (plays_errand _ (.forget path))
  | takeEffects _ ih => exact ih.trans (plays_errand _ .takeEffects)

/-- Every session is at the end of a run of the scheduler. -/
theorem exists_run_of_reached {files : List (String × Content)}
    (reached : Session.Reached shop files session) :
    ∃ occurrences, session.scheduler = Scheduler.after shop.hasReader occurrences := by
  obtain ⟨moves, _, _, rfl⟩ := exists_moves_of_reached reached
  obtain ⟨occurrences, run, _⟩ := (leads_after shop files moves).sound.ran
  exact ⟨occurrences, run⟩

end Inlay.Delivery
