import Inlay.Proofs.OneFile
import Inlay.Proofs.Reload

/-!
Files do not disturb each other.

To compare runs with different jobs, a step tells a job by its path and by its place among the jobs
of the path. Every run is a run of such moves. What a file goes through in it is what it goes
through in the run of the moves that concern it alone, whatever happens to other files in between:
the same is read and built for it with the same arguments, and the same changes are announced. So
moves of different files can change places.
-/

namespace Inlay.Update

open State

/-- A step of the service. A job is told by its path and its place among the jobs of the path. -/
inductive Move
  | notice (notice : Notice)
  | fire (path : String) (place : Nat)
  | read (path : String) (place : Nat) (result : Except ReadFailure String)
  | build (path : String) (place : Nat) (result : Option Built)
  | forget (path : String)
  | close

namespace Move

/-- The file of a move. The end of the service is no file's. -/
def path? : Move → Option String
  | notice told => some told.path
  | fire path _ | read path _ _ | build path _ _ | forget path => some path
  | close => none

/-- Whether a move is one of the file's or the end of the service. -/
def concerns (path : String) (move : Move) : Bool := move.path?.all (· == path)

/-- The event that a move is in a state, none if there is no job in the place. -/
def events (state : State) : Move → List Event
  | notice told => [.notice told]
  | fire path place => (state.jobAt? path place).toList.map (.fire ·.id)
  | read path place result => (state.jobAt? path place).toList.map (.read ·.id result)
  | build path place result => (state.jobAt? path place).toList.map (.build ·.id result)
  | forget path => [.forget path]
  | close => [.close]

end Move

/-- The events of a run of moves. -/
def State.eventsOf (hasReader : Bool) (state : State) : List Move → List Event
  | [] => []
  | move :: moves =>
    move.events state ++ (state.run hasReader (move.events state)).eventsOf hasReader moves

/-- There is a job for every move. -/
def State.Allows (hasReader : Bool) (state : State) : List Move → Prop
  | [] => True
  | move :: moves =>
    move.events state ≠ [] ∧
      (state.run hasReader (move.events state)).Allows hasReader moves

/-- A read or build of a job ends otherwise than a reader and a builder say. -/
inductive Misanswers (reader : String → Except ReadFailure String)
    (builder : String → String → Nat → Option Built) (state : State) : Event → Prop
  | read {id birth generation : Nat} {path : String} {result : Except ReadFailure String}
      (job : state.job? id = some ⟨id, path, .reading birth generation⟩)
      (other : result ≠ reader path) : Misanswers reader builder state (.read id result)
  | build {id birth generation : Nat} {path text : String} {result : Option Built}
      (job : state.job? id = some ⟨id, path, .building birth generation text⟩)
      (other : result ≠ builder path text generation) :
      Misanswers reader builder state (.build id result)

/-- Two runs are the same for a file. -/
structure SameRun (hasReader : Bool) (path : String) (left right : List Event) : Prop where
  file : (after hasReader left).file path = (after hasReader right).file path
  armed : (after hasReader left).isArmed path = (after hasReader right).isArmed path
  rebuilding : (after hasReader left).rebuilding path = (after hasReader right).rebuilding path
  effects : (State.initial.trace hasReader left).filter (·.path == path) =
    (State.initial.trace hasReader right).filter (·.path == path)

/-! ## Moves of the file -/

section

variable {hasReader : Bool} {left right state : State} {path : String} {place : Nat}
  {job twin : Job}

/-- Two stages look the same, each in its state. -/
inductive SameStage (left right : State) (path : String) : Stage → Stage → Prop
  | delayed : SameStage left right path .delayed .delayed
  | reading {birth birth' generation : Nat}
      (current : (left.registry.get? path).any (·.birth == birth) =
        (right.registry.get? path).any (·.birth == birth')) :
      SameStage left right path (.reading birth generation) (.reading birth' generation)
  | building {birth birth' generation : Nat} {text : String}
      (current : (left.registry.get? path).any (·.birth == birth) =
        (right.registry.get? path).any (·.birth == birth')) :
      SameStage left right path (.building birth generation text)
        (.building birth' generation text)

theorem sameStage_of_work {stage stage' : Stage}
    (works : stage.work (left.registry.get? path) = stage'.work (right.registry.get? path)) :
    SameStage left right path stage stage' := by
  cases stage <;> cases stage' <;> simp only [Stage.work, reduceCtorEq, Work.reading.injEq,
    Work.building.injEq] at works
  · exact .delayed
  · obtain ⟨current, rfl⟩ := works
    exact .reading current
  · obtain ⟨current, rfl, rfl⟩ := works
    exact .building current

theorem Twins.stages (twins : Twins path place left right job twin) :
    ∃ stage stage', left.job? job.id = some ⟨job.id, path, stage⟩ ∧
      right.job? twin.id = some ⟨twin.id, path, stage'⟩ ∧
        SameStage left right path stage stage' := by
  have found := job?_of_mem twins.leftNumbered.unique (jobAt?_mem twins.leftAt)
  have found' := job?_of_mem twins.rightNumbered.unique (jobAt?_mem twins.rightAt)
  have own := jobAt?_path twins.leftAt
  have own' := jobAt?_path twins.rightAt
  exact ⟨job.stage, twin.stage, own ▸ found, own' ▸ found', sameStage_of_work twins.works⟩

/-- A step in two states does the same for a file, and answers the same question. -/
structure Alike (hasReader : Bool) (path : String) (left right : State) (event twin : Event) :
    Prop where
  same : SameFor path (left.step hasReader event, left.effects hasReader event)
    (right.step hasReader twin, right.effects hasReader twin)
  answers : ∀ reader builder, Misanswers reader builder right twin →
    Misanswers reader builder left event

theorem Twins.fire_alike (twins : Twins path place left right job twin) :
    Alike hasReader path left right (.fire job.id) (.fire twin.id) := by
  obtain ⟨stage, stage', found, found', alike⟩ := twins.stages
  constructor
  · cases alike with
    | delayed =>
      simp only [State.step, State.effects, found, found']
      exact twins.fire hasReader
    | reading _ | building _ =>
      simp only [State.step, State.effects, found, found']
      exact ⟨twins.same, rfl⟩
  · intro reader builder misanswers
    cases misanswers

theorem Twins.read_alike (twins : Twins path place left right job twin)
    (result : Except ReadFailure String) :
    Alike hasReader path left right (.read job.id result) (.read twin.id result) := by
  obtain ⟨stage, stage', found, found', alike⟩ := twins.stages
  constructor
  · cases alike with
    | reading current =>
      simp only [State.step, State.effects, found, found']
      exact twins.finishRead current result
    | delayed | building _ =>
      simp only [State.step, State.effects, found, found']
      exact ⟨twins.same, rfl⟩
  · intro reader builder misanswers
    cases misanswers with
    | read isJob other =>
      rw [found'] at isJob
      cases alike with
      | delayed | building _ => simp at isJob
      | reading current =>
        simp only [Option.some.injEq, Job.mk.injEq, true_and, Stage.reading.injEq] at isJob
        obtain ⟨rfl, _, rfl⟩ := isJob
        exact .read found other

theorem Twins.build_alike (twins : Twins path place left right job twin)
    (result : Option Built) :
    Alike hasReader path left right (.build job.id result) (.build twin.id result) := by
  obtain ⟨stage, stage', found, found', alike⟩ := twins.stages
  constructor
  · cases alike with
    | building current =>
      simp only [State.step, State.effects, found, found']
      exact twins.finishBuild current result
    | delayed | reading _ =>
      simp only [State.step, State.effects, found, found']
      exact ⟨twins.same, rfl⟩
  · intro reader builder misanswers
    cases misanswers with
    | build isJob other =>
      rw [found'] at isJob
      cases alike with
      | delayed | reading _ => simp at isJob
      | building current =>
        simp only [Option.some.injEq, Job.mk.injEq, true_and, Stage.building.injEq] at isJob
        obtain ⟨rfl, _, rfl, rfl⟩ := isJob
        exact .build found other

/-- A notification about a file does the same for it in states in which it looks the same. -/
theorem notice_alike (leftValid : Valid left) (rightValid : Valid right)
    (same : left.file path = right.file path) {notice : Notice} (about : notice.path = path) :
    Alike hasReader path left right (.notice notice) (.notice notice) := by
  have notified := file_notify_eq leftValid rightValid same about
  refine ⟨⟨?_, rfl⟩, fun _ _ misanswers => by cases misanswers⟩
  cases notice with
  | wanted _ =>
    simp only [State.step]
    split
    · exact notified
    · exact same
  | opened _ _ | edited _ _ | changed _ | deleted _ =>
    simp only [State.step]
    exact notified

theorem forget_alike (same : left.file path = right.file path) :
    Alike hasReader path left right (.forget path) (.forget path) := by
  refine ⟨⟨?_, rfl⟩, fun _ _ misanswers => by cases misanswers⟩
  simp only [State.step, file_remove, same]

theorem close_alike (same : left.file path = right.file path) :
    Alike hasReader path left right .close .close := by
  refine ⟨⟨?_, rfl⟩, fun _ _ misanswers => by cases misanswers⟩
  have entry : (left.file path).entry = (right.file path).entry := by rw [same]
  exact File.ext entry rfl rfl

/-- A move that concerns a file is no event in both states, or events that are alike. -/
theorem events_alike (leftValid : Valid left) (rightValid : Valid right)
    (same : left.file path = right.file path) {move : Move} (own : move.concerns path = true) :
    (move.events left = [] ∧ move.events right = []) ∨
      ∃ event twin, move.events left = [event] ∧ move.events right = [twin] ∧
        Alike hasReader path left right event twin := by
  have jobs : ∀ place, (left.jobAt? path place = none ∧ right.jobAt? path place = none) ∨
      ∃ job twin, left.jobAt? path place = some job ∧ right.jobAt? path place = some twin ∧
        Twins path place left right job twin := by
    intro place
    have places : (left.jobAt? path place).isSome = (right.jobAt? path place).isSome := by
      have works : (left.file path).works[place]?.isSome =
          (right.file path).works[place]?.isSome := by rw [same]
      simpa [file, jobAt?] using works
    cases found : left.jobAt? path place with
    | none => exact .inl ⟨rfl, by simpa [found] using places.symm⟩
    | some job =>
      obtain ⟨twin, found'⟩ := Option.isSome_iff_exists.mp (places.symm.trans (by rw [found]; rfl))
      exact .inr ⟨job, twin, rfl, found',
        ⟨same, leftValid.numbered, rightValid.numbered, found, found'⟩⟩
  cases move with
  | notice told =>
    have about : told.path = path := by simpa [Move.concerns, Move.path?] using own
    exact .inr ⟨_, _, rfl, rfl, notice_alike leftValid rightValid same about⟩
  | forget other =>
    obtain rfl : other = path := by simpa [Move.concerns, Move.path?] using own
    exact .inr ⟨_, _, rfl, rfl, forget_alike same⟩
  | close => exact .inr ⟨_, _, rfl, rfl, close_alike same⟩
  | fire other place =>
    obtain rfl : other = path := by simpa [Move.concerns, Move.path?] using own
    rcases jobs place with ⟨none, none'⟩ | ⟨job, twin, found, found', twins⟩
    · simp [Move.events, none, none']
    · exact .inr ⟨_, _, by simp [Move.events, found], by simp [Move.events, found'],
        twins.fire_alike⟩
  | read other place result =>
    obtain rfl : other = path := by simpa [Move.concerns, Move.path?] using own
    rcases jobs place with ⟨none, none'⟩ | ⟨job, twin, found, found', twins⟩
    · simp [Move.events, none, none']
    · exact .inr ⟨_, _, by simp [Move.events, found], by simp [Move.events, found'],
        twins.read_alike result⟩
  | build other place result =>
    obtain rfl : other = path := by simpa [Move.concerns, Move.path?] using own
    rcases jobs place with ⟨none, none'⟩ | ⟨job, twin, found, found', twins⟩
    · simp [Move.events, none, none']
    · exact .inr ⟨_, _, by simp [Move.events, found], by simp [Move.events, found'],
        twins.build_alike result⟩

/-! ## All moves -/

theorem woken_path (numbered : Numbered state) {move : Move} {event : Event} {woken : Job}
    (isEvent : event ∈ move.events state) (wakes : Wakes state event woken) :
    move.path? = some woken.path := by
  have sameJob : ∀ {path place job}, state.jobAt? path place = some job → woken.id = job.id →
      path = woken.path := by
    intro path place job found sameId
    have isJob := job?_of_mem numbered.unique (jobAt?_mem found)
    rw [← sameId, wakes.job?] at isJob
    rw [← jobAt?_path found, Option.some.inj isJob]
  cases move with
  | notice _ | forget _ | close =>
    obtain rfl := List.mem_singleton.mp isEvent
    cases wakes
  | fire path place | read path place _ | build path place _ =>
    obtain ⟨job, found, rfl⟩ := List.mem_map.mp isEvent
    have found : state.jobAt? path place = some job := Option.mem_toList.mp found
    have sameId : woken.id = job.id := by cases wakes; rfl
    exact congrArg some (sameJob found sameId)

/-- A move that does not concern a file is no event that does. -/
theorem not_concerns (numbered : Numbered state) {move : Move} {event : Event}
    (other : ¬ move.concerns path = true) (isEvent : event ∈ move.events state) :
    ¬ Concerns state path event := by
  intro concerns
  have job : ∀ woken, Wakes state event woken → woken.path = path → False := by
    intro woken wakes own
    simp [Move.concerns, woken_path numbered isEvent wakes, own] at other
  cases move with
  | close => simp [Move.concerns, Move.path?] at other
  | notice told =>
    obtain rfl := List.mem_singleton.mp isEvent
    cases concerns with
    | notice about => simp [Move.concerns, Move.path?, about] at other
    | job wakes own => exact job _ wakes own
  | forget told =>
    obtain rfl := List.mem_singleton.mp isEvent
    cases concerns with
    | forget => simp [Move.concerns, Move.path?] at other
    | job wakes own => exact job _ wakes own
  | fire _ _ | read _ _ _ | build _ _ _ =>
    obtain ⟨_, _, rfl⟩ := List.mem_map.mp isEvent
    cases concerns with
    | job wakes own => exact job _ wakes own

/-- What a move that concerns a file does besides, it does for the file. -/
theorem effects_of_concerns (numbered : Numbered state) {move : Move} {event : Event}
    (own : move.concerns path = true) (isEvent : event ∈ move.events state) :
    (state.effects hasReader event).filter (·.path == path) = state.effects hasReader event := by
  refine List.filter_eq_self.mpr fun effect isEffect => ?_
  obtain ⟨woken, wakes, samePath⟩ := effect_of_job isEffect
  simpa [Move.concerns, woken_path numbered isEvent wakes, samePath] using own

theorem events_cases (move : Move) (state : State) :
    move.events state = [] ∨ ∃ event, move.events state = [event] := by
  cases move with
  | notice _ | forget _ | close => exact .inr ⟨_, rfl⟩
  | fire path place | read path place _ | build path place _ =>
    cases found : state.jobAt? path place <;> simp [Move.events, found]

end

/-- What one run is for a file, another is altogether. -/
structure Projects (hasReader : Bool) (path : String) (left right : State)
    (events alone : List Event) : Prop where
  file : (left.run hasReader events).file path = (right.run hasReader alone).file path
  effects : (left.trace hasReader events).filter (·.path == path) = right.trace hasReader alone
  answers : ∀ reader builder, Never hasReader left events (Misanswers reader builder) →
    Never hasReader right alone (Misanswers reader builder)

theorem never_cons {hasReader : Bool} {state : State} {event : Event} {events : List Event}
    {occurs : State → Event → Prop} (now : ¬ occurs state event)
    (later : Never hasReader (state.step hasReader event) events occurs) :
    Never hasReader state (event :: events) occurs := by
  intro recent last isPrefix
  cases recent with
  | nil =>
    obtain ⟨rfl, _⟩ := List.cons_prefix_cons.mp isPrefix
    exact now
  | cons first recent =>
    obtain ⟨rfl, rest⟩ := List.cons_prefix_cons.mp isPrefix
    exact later recent last rest

section

variable {hasReader : Bool} {left right : State} {path : String} {event twin : Event}
  {events alone : List Event}

/-- An event that is alike in both runs comes first. -/
theorem Projects.both (alike : Alike hasReader path left right event twin)
    (own : (left.effects hasReader event).filter (·.path == path) = left.effects hasReader event)
    (later : Projects hasReader path (left.step hasReader event) (right.step hasReader twin) events
      alone) : Projects hasReader path left right (event :: events) (twin :: alone) where
  file := later.file
  effects := by
    have done : left.effects hasReader event = right.effects hasReader twin := alike.same.2
    rw [trace, trace, List.filter_append, own, done, later.effects]
  answers := by
    intro reader builder never
    obtain ⟨now, rest⟩ := never.cons
    exact never_cons (fun misanswers => now (alike.answers _ _ misanswers))
      (later.answers reader builder rest)

/-- An event that does not concern the file comes first in one of the runs. -/
theorem Projects.apart (apart : ¬ Concerns left path event)
    (later : Projects hasReader path (left.step hasReader event) right events alone) :
    Projects hasReader path left right (event :: events) alone where
  file := later.file
  effects := by
    simp only [trace, List.filter_append, effects_of_apart apart, later.effects, List.nil_append]
  answers := fun reader builder never => later.answers reader builder never.cons.2

end

theorem projects (hasReader : Bool) (path : String) {left right : State} (leftValid : Valid left)
    (rightValid : Valid right) (same : left.file path = right.file path) (moves : List Move) :
    Projects hasReader path left right (left.eventsOf hasReader moves)
      (right.eventsOf hasReader (moves.filter (·.concerns path))) := by
  induction moves generalizing left right with
  | nil => exact ⟨same, rfl, fun _ _ _ => .nil⟩
  | cons move moves ih =>
    by_cases own : move.concerns path = true
    · rw [List.filter_cons_of_pos own, State.eventsOf, State.eventsOf]
      rcases events_alike leftValid rightValid same own with
        ⟨none, none'⟩ | ⟨event, twin, now, now', alike⟩
      · rw [none, none']
        exact ih leftValid rightValid same
      · have isEvent : event ∈ move.events left := by simp [now]
        rw [now, now']
        exact .both alike (effects_of_concerns leftValid.numbered own isEvent)
          (ih (valid_step hasReader event leftValid) (valid_step hasReader twin rightValid)
            alike.same.1)
    · rw [List.filter_cons_of_neg own, State.eventsOf]
      rcases events_cases move left with none | ⟨event, now⟩
      · rw [none]
        exact ih leftValid rightValid same
      · have apart := not_concerns leftValid.numbered own (by simp [now] : event ∈ _)
        rw [now]
        exact .apart apart (ih (valid_step hasReader event leftValid) rightValid
          ((file_of_step leftValid.numbered apart).trans same))

/-- If there is a job for every move, there is one for each without the moves of other files. -/
theorem allows_alone {hasReader : Bool} {path : String} {left right : State}
    (leftValid : Valid left) (rightValid : Valid right) (same : left.file path = right.file path)
    {moves : List Move} (allows : left.Allows hasReader moves) :
    right.Allows hasReader (moves.filter (·.concerns path)) := by
  induction moves generalizing left right with
  | nil => trivial
  | cons move moves ih =>
    obtain ⟨some, later⟩ := allows
    by_cases own : move.concerns path = true
    · rw [List.filter_cons_of_pos own]
      rcases events_alike leftValid rightValid same own with
        ⟨none, _⟩ | ⟨event, twin, now, now', alike⟩
      · exact absurd none some
      · rw [now] at later
        refine ⟨by simp [now'], ?_⟩
        rw [now']
        exact ih (valid_step hasReader event leftValid) (valid_step hasReader twin rightValid)
          alike.same.1 later
    · rw [List.filter_cons_of_neg own]
      rcases events_cases move left with none | ⟨event, now⟩
      · exact absurd none some
      · have apart := not_concerns leftValid.numbered own (by simp [now] : event ∈ _)
        rw [now] at later
        exact ih (valid_step hasReader event leftValid) rightValid
          ((file_of_step leftValid.numbered apart).trans same) later

theorem exists_move (hasReader : Bool) (state : State) (event : Event) :
    (∃ move : Move, move.events state = [event]) ∨
      state.step hasReader event = state ∧ state.effects hasReader event = [] := by
  have ofJob : ∀ id, event.job? = some id →
      (∃ path place job, state.jobAt? path place = some job ∧ job.id = id) ∨
        state.step hasReader event = state ∧ state.effects hasReader event = [] := by
    intro id own
    cases found : state.job? id with
    | none => exact .inr (step_of_absent found own)
    | some job =>
      obtain ⟨place, isAt⟩ := exists_jobAt? (List.mem_of_find?_eq_some found)
      exact .inl ⟨job.path, place, job, isAt, job?_id found⟩
  cases event with
  | notice told => exact .inl ⟨.notice told, rfl⟩
  | forget path => exact .inl ⟨.forget path, rfl⟩
  | close => exact .inl ⟨.close, rfl⟩
  | fire id =>
    refine (ofJob id rfl).imp_left ?_
    rintro ⟨path, place, job, isAt, rfl⟩
    exact ⟨.fire path place, by simp [Move.events, isAt]⟩
  | read id result =>
    refine (ofJob id rfl).imp_left ?_
    rintro ⟨path, place, job, isAt, rfl⟩
    exact ⟨.read path place result, by simp [Move.events, isAt]⟩
  | build id result =>
    refine (ofJob id rfl).imp_left ?_
    rintro ⟨path, place, job, isAt, rfl⟩
    exact ⟨.build path place result, by simp [Move.events, isAt]⟩

/-- Every run is a run of moves, but for events of jobs that are not there, which do nothing. -/
theorem exists_moves (hasReader : Bool) (state : State) (events : List Event) :
    ∃ moves, state.Allows hasReader moves ∧
      state.run hasReader (state.eventsOf hasReader moves) = state.run hasReader events ∧
      state.trace hasReader (state.eventsOf hasReader moves) = state.trace hasReader events := by
  induction events generalizing state with
  | nil => exact ⟨[], trivial, rfl, rfl⟩
  | cons event events ih =>
    rcases exists_move hasReader state event with ⟨move, isEvent⟩ | ⟨still, silent⟩
    · obtain ⟨moves, allows, ran, traced⟩ := ih (state.step hasReader event)
      refine ⟨move :: moves, ⟨by simp [isEvent], by rw [isEvent]; exact allows⟩, ?_⟩
      rw [State.eventsOf, isEvent]
      exact ⟨ran, congrArg (state.effects hasReader event ++ ·) traced⟩
    · obtain ⟨moves, allows, ran, traced⟩ := ih state
      refine ⟨moves, allows, ?_, ?_⟩
      · show _ = (state.step hasReader event).run hasReader events
        rw [still, ran]
      · rw [trace, still, silent, traced, List.nil_append]

/-- Runs are the same for a file if the moves that concern it are. -/
theorem sameRun_of_filter (hasReader : Bool) (path : String) {moves moves' : List Move}
    (own : moves.filter (·.concerns path) = moves'.filter (·.concerns path)) :
    SameRun hasReader path (State.initial.eventsOf hasReader moves)
      (State.initial.eventsOf hasReader moves') := by
  have project := projects hasReader path valid_initial valid_initial rfl
  have left := project moves
  have right := project moves'
  rw [own] at left
  have file := left.file.trans right.file.symm
  refine ⟨file, ?_, ?_, left.effects.trans right.effects.symm⟩
  · rw [isArmed_eq, isArmed_eq]
    exact congrArg (fun file : File => file.works.any (·.isDelayed)) file
  · rw [rebuilding_eq, rebuilding_eq]
    exact congrArg (fun file : File => (file.works.filter (!·.isDelayed)).length) file

/-- What happens to a file, and is done for it, is the same as if no other file had been there: in
every run of moves, as in the run of those moves alone that concern the file. If there is a job for
every move in the one there is in the other, and if reads and builds end in the one as a reader and
a builder say, they do so in the other. Moves of different files can change places. Every run of
events is such a run of moves. -/
theorem files_are_independent (hasReader : Bool) :
    (∀ moves path,
      let own := moves.filter (·.concerns path)
      let whole := State.initial.eventsOf hasReader moves
      let alone := State.initial.eventsOf hasReader own
      SameRun hasReader path whole alone ∧
        (State.initial.trace hasReader whole).filter (·.path == path) =
          State.initial.trace hasReader alone ∧
        (State.initial.Allows hasReader moves → State.initial.Allows hasReader own) ∧
        ∀ reader builder,
          Never hasReader .initial whole (Misanswers reader builder) →
            Never hasReader .initial alone (Misanswers reader builder)) ∧
    (∀ earlier later : List Move, ∀ first second : Move, ∀ file other : String,
      first.path? = some file → second.path? = some other → file ≠ other → ∀ path,
        SameRun hasReader path
          (State.initial.eventsOf hasReader (earlier ++ first :: second :: later))
          (State.initial.eventsOf hasReader (earlier ++ second :: first :: later))) ∧
    ∀ events, ∃ moves, State.initial.Allows hasReader moves ∧
      after hasReader (State.initial.eventsOf hasReader moves) = after hasReader events ∧
        State.initial.trace hasReader (State.initial.eventsOf hasReader moves) =
          State.initial.trace hasReader events := by
  refine ⟨?_, ?_, exists_moves hasReader .initial⟩
  · intro moves path
    have project := projects hasReader path valid_initial valid_initial rfl moves
    refine ⟨sameRun_of_filter hasReader path ?_, project.effects,
      allows_alone valid_initial valid_initial rfl, project.answers⟩
    rw [List.filter_filter]
    simp only [Bool.and_self]
  · intro earlier later first second file other ofFirst ofSecond different path
    refine sameRun_of_filter hasReader path ?_
    have oneOnly : first.concerns path = false ∨ second.concerns path = false := by
      by_cases own : file = path
      · right
        simpa [Move.concerns, ofSecond, ← own] using Ne.symm different
      · left
        simpa [Move.concerns, ofFirst] using own
    rw [List.filter_append, List.filter_append]
    rcases oneOnly with none | none
    · simp [List.filter_cons, none]
    · simp [List.filter_cons, none]

/-- The read of one file breaks down while another is read and built. The other ends as it does
alone, and as it does if it is read before. -/
theorem broken_read_leaves_other_file :
    let reader := fun path => if path = "b.ts" then .error .broken else .ok "x"
    let builder := fun _ _ _ => some (⟨[], false⟩ : Built)
    let earlier : List Move :=
      [.notice (.changed "b.ts"), .notice (.changed "a.ts"), .fire "b.ts" 0, .fire "a.ts" 0]
    let breaks : Move := .read "b.ts" 0 (reader "b.ts")
    let reads : Move := .read "a.ts" 0 (reader "a.ts")
    let builds : Move := .build "a.ts" 0 (builder "a.ts" "x" 1)
    let moves := earlier ++ breaks :: reads :: [builds]
    let own := [.notice (.changed "a.ts"), .fire "a.ts" 0, reads, builds]
    moves.filter (·.concerns "a.ts") = own ∧
      State.initial.trace true (State.initial.eventsOf true own) =
        [.read "a.ts", .build "a.ts" "x" 1, .changed "a.ts"] ∧
      SameRun true "a.ts" (State.initial.eventsOf true moves) (State.initial.eventsOf true own) ∧
      SameRun true "a.ts" (State.initial.eventsOf true moves)
        (State.initial.eventsOf true (earlier ++ reads :: breaks :: [builds])) ∧
      Never true .initial (State.initial.eventsOf true moves) (Misanswers reader builder) ∧
      Never true .initial (State.initial.eventsOf true own) (Misanswers reader builder) := by
  intro reader builder earlier breaks reads builds moves own
  obtain ⟨alone, swapped, _⟩ := files_are_independent true
  obtain ⟨same, _, _, answers⟩ := alone moves "a.ts"
  have filtered : moves.filter (·.concerns "a.ts") = own := rfl
  have answered : Never true .initial (State.initial.eventsOf true moves)
      (Misanswers reader builder) := by
    refine never_cons nofun (never_cons nofun (never_cons nofun (never_cons nofun
      (never_cons ?_ (never_cons ?_ (never_cons ?_ .nil))))))
    · intro misanswers
      cases misanswers with
      | read job other =>
        refine other (congrArg reader (Option.some.inj (.trans ?_ (congrArg (·.map Job.path) job))))
        decide
    · intro misanswers
      cases misanswers with
      | read job other =>
        refine other (congrArg reader (Option.some.inj (.trans ?_ (congrArg (·.map Job.path) job))))
        decide
    · intro misanswers
      cases misanswers with
      | build job other => exact other rfl
  rw [filtered] at same answers
  exact ⟨filtered, by decide, same,
    swapped earlier [builds] breaks reads "b.ts" "a.ts" rfl rfl (by decide) "a.ts", answered,
    answers reader builder answered⟩

end Inlay.Update
