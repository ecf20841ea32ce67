import Inlay.Proofs.Attended
import Inlay.Proofs.Finality
import Mathlib.Data.List.InsertIdx

/-!
What one file sees of the service.

All files share the registry, the list of jobs and two counters: births tell entries apart, and
numbers tell jobs apart. A file sees its entry without the birth and its jobs without the numbers,
and of a job that works for an entry it sees whether that entry is still the present one. What a
step does to a file is told by what the file sees. The steps of other files do nothing to it.
-/

namespace Inlay

/-- An entry apart from which one of its path it is. -/
def Entry.anonymous (entry : Entry) : Entry := { entry with birth := 0 }

/-- A change of entries that neither asks nor tells which entry of its path it changes. -/
structure Entry.Impartial (change : Entry → Entry) : Prop where
  path : ∀ entry, (change entry).path = entry.path
  birth : ∀ entry birth, change { entry with birth } = { change entry with birth }

namespace Entry.Impartial

theorem keeps_birth {change : Entry → Entry} (impartial : Impartial change) (entry : Entry) :
    (change entry).birth = entry.birth := by
  have same : change entry = { change entry with birth := entry.birth } :=
    impartial.birth entry entry.birth
  rw [same]

theorem anonymous {change : Entry → Entry} (impartial : Impartial change) (entry : Entry) :
    (change entry).anonymous = change entry.anonymous :=
  (impartial.birth entry 0).symm

theorem opening (text : String) : Impartial (·.opening text) := ⟨fun _ => rfl, fun _ _ => rfl⟩

theorem markReload : Impartial Entry.markReload := ⟨fun _ => rfl, fun _ _ => rfl⟩

theorem editAll (edits : List Edit) : Impartial (·.editAll edits) := by
  refine ⟨by simp, ?_⟩
  intro entry birth
  induction edits generalizing entry with
  | nil => rfl
  | cons edit edits ih => exact ih (entry.edit edit)

theorem load (text : String) : Impartial (·.load text) := by
  refine ⟨by simp, ?_⟩
  intro entry birth
  exact (editAll entry.pending).birth { entry.replaceText text with pending := [] } birth

theorem change (edits : List Edit) : Impartial (·.change edits) := by
  refine ⟨by simp, ?_⟩
  intro entry birth
  cases waits : entry.isWaiting with
  | true =>
    have waits' : { entry with birth }.isWaiting = true := waits
    simp only [Entry.change, waits, waits', if_true]
    rfl
  | false =>
    have waits' : { entry with birth }.isWaiting = false := waits
    simp only [Entry.change, waits, waits', Bool.false_eq_true, if_false,
      (editAll edits).birth entry birth]
    rfl

theorem accept (built : Built) : Impartial (Update.State.accept built) := by
  refine ⟨by simp, ?_⟩
  intro entry birth
  simp only [Update.accept_eq]

end Entry.Impartial

namespace Update

open State

/-- What a file sees of a job. -/
inductive Work
  | delayed
  | reading (current : Bool) (generation : Nat)
  | building (current : Bool) (generation : Nat) (text : String)
  deriving DecidableEq, Repr

def Work.isDelayed (work : Work) : Bool := work == .delayed

/-- The work of a job whose path has this entry. -/
def Stage.work (entry : Option Entry) : Stage → Work
  | delayed => .delayed
  | reading birth generation => .reading (entry.any (·.birth == birth)) generation
  | building birth generation text => .building (entry.any (·.birth == birth)) generation text

@[ext]
structure File where
  entry : Option Entry
  /-- In the order in which they were armed. -/
  works : List Work
  closed : Bool
  deriving DecidableEq, Repr

namespace State

def jobsOf (state : State) (path : String) : List Job := state.jobs.filter (·.path == path)

/-- The state as one file sees it. -/
def file (state : State) (path : String) : File where
  entry := (state.registry.get? path).map Entry.anonymous
  works := (state.jobsOf path).map (·.stage.work (state.registry.get? path))
  closed := state.closed

/-- The job of a path that was armed in this place among those that are there. -/
def jobAt? (state : State) (path : String) (place : Nat) : Option Job :=
  (state.jobsOf path)[place]?

end State

theorem isDelayed_work (entry : Option Entry) (stage : Stage) :
    (stage.work entry).isDelayed = (stage == .delayed) := by
  cases stage <;> rfl

section

variable {state next : State} {path other : String} {job : Job} {place : Nat}

theorem isArmed_eq (state : State) (path : String) :
    state.isArmed path = (state.file path).works.any (·.isDelayed) := by
  simp [isArmed, file, jobsOf, Job.isDelayed, List.any_map, List.any_filter, Function.comp_def,
    isDelayed_work]

theorem rebuilding_eq (state : State) (path : String) :
    state.rebuilding path = ((state.file path).works.filter (!·.isDelayed)).length := by
  have swapped : (fun job : Job => job.path == path && !job.isDelayed) =
      fun job => !job.isDelayed && job.path == path := funext fun _ => Bool.and_comm _ _
  rw [rebuilding, swapped]
  simp [file, jobsOf, Job.isDelayed, List.filter_map, List.filter_filter, Function.comp_def,
    isDelayed_work]

theorem file_congr (entry : next.registry.get? path = state.registry.get? path)
    (jobs : next.jobsOf path = state.jobsOf path) (closed : next.closed = state.closed) :
    next.file path = state.file path := by
  simp only [file, entry, jobs, closed]

theorem jobAt?_path (found : state.jobAt? path place = some job) : job.path = path := by
  simpa using (List.mem_filter.mp (List.mem_of_getElem? found)).2

theorem jobAt?_mem (found : state.jobAt? path place = some job) : job ∈ state.jobs :=
  (List.mem_filter.mp (List.mem_of_getElem? found)).1

theorem exists_jobAt? (member : job ∈ state.jobs) :
    ∃ place, state.jobAt? job.path place = some job :=
  List.mem_iff_getElem?.mp (List.mem_filter.mpr ⟨member, by simp⟩)

/-! ## The jobs of a path -/

theorem unique_jobsOf (numbered : Numbered state) (path : String) :
    ((state.jobsOf path).map (·.id)).Nodup :=
  (List.filter_sublist.map _).nodup numbered.unique

theorem filter_ne_eq_eraseIdx {jobs : List Job} (unique : (jobs.map (·.id)).Nodup)
    (found : jobs[place]? = some job) : jobs.filter (·.id ≠ job.id) = jobs.eraseIdx place := by
  induction jobs generalizing place with
  | nil => simp at found
  | cons first rest ih =>
    obtain ⟨fresh, unique⟩ := List.nodup_cons.mp unique
    cases place with
    | zero =>
      obtain rfl : first = job := by simpa using found
      have kept : rest.filter (·.id ≠ first.id) = rest := by
        refine List.filter_eq_self.mpr fun other isRest => ?_
        have different : other.id ≠ first.id := fun same =>
          fresh (List.mem_map.mpr ⟨other, isRest, same⟩)
        simpa using different
      simp only [List.eraseIdx_zero, List.tail_cons]
      rw [List.filter_cons_of_neg (by simp), kept]
    | succ place =>
      have found : rest[place]? = some job := by simpa using found
      have different : first.id ≠ job.id := fun same =>
        fresh (List.mem_map.mpr ⟨job, List.mem_of_getElem? found, same.symm⟩)
      rw [List.filter_cons_of_pos (by simpa using different), ih unique found,
        List.eraseIdx_cons_succ]

theorem map_stage_eq_set {jobs : List Job} (unique : (jobs.map (·.id)).Nodup)
    (found : jobs[place]? = some job) (stage : Stage) :
    (jobs.map fun other => if other.id = job.id then { other with stage } else other) =
      jobs.set place { job with stage } := by
  induction jobs generalizing place with
  | nil => simp at found
  | cons first rest ih =>
    obtain ⟨fresh, unique⟩ := List.nodup_cons.mp unique
    cases place with
    | zero =>
      obtain rfl : first = job := by simpa using found
      have kept : (rest.map fun other =>
          if other.id = first.id then { other with stage } else other) = rest := by
        refine (List.map_congr_left fun other isRest => ?_).trans (List.map_id _)
        have different : other.id ≠ first.id := fun same =>
          fresh (List.mem_map.mpr ⟨other, isRest, same⟩)
        rw [if_neg different, id]
      rw [List.map_cons, kept, if_pos rfl, List.set_cons_zero]
    | succ place =>
      have found : rest[place]? = some job := by simpa using found
      have different : first.id ≠ job.id := fun same =>
        fresh (List.mem_map.mpr ⟨job, List.mem_of_getElem? found, same.symm⟩)
      rw [List.map_cons, ih unique found, if_neg different, List.set_cons_succ]

/-! ## What is done to the file itself -/

namespace File

/-- Arms new work in place of what is delayed. -/
def arm (file : File) : File :=
  if file.closed then file
  else { file with works := file.works.filter (!·.isDelayed) ++ [.delayed] }

/-- The work in a place ends. -/
def drop (file : File) (place : Nat) : File := { file with works := file.works.eraseIdx place }

/-- The work in a place goes on. -/
def setWork (file : File) (place : Nat) (work : Work) : File :=
  { file with works := file.works.set place work }

def modify (file : File) (change : Entry → Entry) : File :=
  { file with entry := file.entry.map change }

/-- The entry is changed, a new one if there is none. -/
def notice (file : File) (path : String) (change : Entry → Entry) : File :=
  { file with entry := some (change (file.entry.getD (.new path 0))) }

/-- The entry is gone, and what works for it sees that. -/
def remove (file : File) : File where
  entry := none
  works := file.works.map fun work =>
    match work with
    | .delayed => .delayed
    | .reading _ generation => .reading false generation
    | .building _ generation text => .building false generation text
  closed := file.closed

end File

theorem file_schedule (state : State) (path : String) :
    (state.schedule path).file path = (state.file path).arm := by
  have others : (state.jobs.filter fun job => !(job.path == path && job.isDelayed)).filter
      (·.path == path) = (state.jobsOf path).filter (!·.isDelayed) := by
    rw [jobsOf, List.filter_filter, List.filter_filter]
    congr 1
    funext job
    cases job.path == path <;> simp
  unfold schedule File.arm
  cases closed : state.closed with
  | true => simp [file, closed]
  | false =>
    rw [if_neg (by simp), if_neg (by simp [file, closed])]
    apply File.ext
    · rfl
    · simp only [file, jobsOf, List.filter_append, others, List.map_append, List.filter_map]
      congr 1
      · simp only [Function.comp_def, isDelayed_work, Job.isDelayed]
      · simp [Stage.work]
    · exact closed.symm

theorem file_drop (numbered : Numbered state) (found : state.jobAt? path place = some job) :
    (state.drop job.id).file path = (state.file path).drop place := by
  have jobs : (state.drop job.id).jobsOf path = (state.jobsOf path).eraseIdx place := by
    rw [← filter_ne_eq_eraseIdx (unique_jobsOf numbered path) found]
    simp only [jobsOf, State.drop, List.filter_filter, Bool.and_comm]
  apply File.ext
  · rfl
  · simp only [File.drop, file, jobs, List.eraseIdx_map]
    rfl
  · rfl

theorem file_setStage (numbered : Numbered state) (found : state.jobAt? path place = some job)
    (stage : Stage) :
    (state.setStage job.id stage).file path =
      (state.file path).setWork place (stage.work (state.registry.get? path)) := by
  have jobs : (state.setStage job.id stage).jobsOf path =
      (state.jobsOf path).set place { job with stage } := by
    rw [← map_stage_eq_set (unique_jobsOf numbered path) found]
    simp only [jobsOf, setStage, List.filter_map]
    congr 1
    refine List.filter_congr fun other _ => ?_
    simp only [Function.comp_apply]
    split <;> rfl
  apply File.ext
  · rfl
  · simp only [File.setWork, file, jobs, List.map_set]
    rfl
  · rfl

theorem task_of_impartial {change : Entry → Entry} (impartial : Entry.Impartial change)
    (entry : Option Entry) (stage : Stage) : stage.work (entry.map change) = stage.work entry := by
  cases entry with
  | none => rfl
  | some entry => cases stage <;> simp [Stage.work, impartial.keeps_birth]

theorem file_modify (state : State) (path : String) {change : Entry → Entry}
    (impartial : Entry.Impartial change) :
    (state.modify path change).file path = (state.file path).modify change := by
  have entry : (state.modify path change).registry.get? path =
      (state.registry.get? path).map change := by
    simp [State.modify, Registry.get?_modify _ _ _ impartial.path]
  apply File.ext
  · simp only [File.modify, file, entry, Option.map_map]
    congr 1
    exact funext impartial.anonymous
  · simp only [File.modify, file, entry, task_of_impartial impartial]
    rfl
  · rfl

/-- A notification changes the entry. An entry that is new is not the one of any job. -/
theorem file_notice (valid : Valid state) (path : String) {change : Entry → Entry}
    (impartial : Entry.Impartial change) :
    { state with registry := (state.registry.ensure path).modify path change }.file path =
      (state.file path).notice path change := by
  have entry : ((state.registry.ensure path).modify path change).get? path =
      some (change (state.registry.entryFor path)) := by
    simp [Registry.get?_ensure_modify _ _ _ impartial.path]
  cases known : state.registry.get? path with
  | some old =>
    rw [Registry.entryFor_of_get? known] at entry
    simp only [File.notice, file, entry, known, Option.map_some, Option.getD_some,
      ← impartial.anonymous]
    congr 1
    refine List.map_congr_left fun job _ => ?_
    exact task_of_impartial impartial (some old) job.stage
  | none =>
    rw [Registry.entryFor, known, Option.getD_none] at entry
    have birth : (change (.new path state.registry.births)).birth = state.registry.births :=
      impartial.keeps_birth _
    apply File.ext
    · simp only [File.notice, file, entry, known, Option.map_some, Option.map_none,
        Option.getD_none, impartial.anonymous]
      rfl
    · simp only [File.notice, file, entry, known]
      refine List.map_congr_left fun job isJob => ?_
      have works := valid.works job (List.mem_filter.mp isJob).1
      cases stage : job.stage with
      | delayed => rfl
      | reading old generation =>
        have older := (works old generation (.inl stage)).1
        simp [Stage.work, birth, Nat.ne_of_gt older]
      | building old generation text =>
        have older := (works old generation (.inr ⟨text, stage⟩)).1
        simp [Stage.work, birth, Nat.ne_of_gt older]
    · rfl

theorem file_remove (state : State) (path : String) :
    { state with registry := state.registry.remove path }.file path = (state.file path).remove := by
  have entry : (state.registry.remove path).get? path = none := by simp [Registry.get?_remove]
  apply File.ext
  · simp only [File.remove, file, entry, Option.map_none]
  · simp only [File.remove, file, entry, List.map_map]
    refine List.map_congr_left fun job _ => ?_
    cases stage : job.stage <;> simp [Stage.work, stage]
  · rfl

theorem file_cancel (state : State) (path : String) :
    (state.cancel path).file path = { state.file path with works := [] } := by
  have jobs : (state.cancel path).jobsOf path = [] := by
    simp [jobsOf, State.cancel, List.filter_filter]
  apply File.ext
  · rfl
  · simp only [file, jobs, List.map_nil]
  · rfl

/-! ## What is done to other files -/

theorem jobsOf_schedule (different : path ≠ other) :
    (state.schedule other).jobsOf path = state.jobsOf path := by
  unfold schedule
  split
  · rfl
  · have mine : (fun job : Job => job.path == path && !(job.path == other && job.isDelayed)) =
        (·.path == path) := by
      funext job
      by_cases own : job.path = path
      · simp [own, different]
      · simp [own]
    simp only [jobsOf, List.filter_append, List.filter_filter, mine]
    simp [Ne.symm different]

theorem jobsOf_filter {keep : Job → Bool} (keeps : ∀ job ∈ state.jobs, job.path = path → keep job) :
    { state with jobs := state.jobs.filter keep }.jobsOf path = state.jobsOf path := by
  simp only [jobsOf, List.filter_filter]
  refine List.filter_congr fun job isJob => ?_
  by_cases own : job.path = path
  · simp [own, keeps job isJob own]
  · simp [own]

theorem jobsOf_cancel (different : path ≠ other) :
    (state.cancel other).jobsOf path = state.jobsOf path := by
  refine jobsOf_filter fun job _ own => ?_
  simpa [own] using different

/-- The jobs of other paths have other numbers. -/
theorem id_ne_of_path_ne (numbered : Numbered state) {mine : Job} (isMine : mine ∈ state.jobs)
    (member : job ∈ state.jobs) (different : mine.path ≠ job.path) : mine.id ≠ job.id := by
  intro same
  have found := job?_of_mem numbered.unique isMine
  rw [same, job?_of_mem numbered.unique member] at found
  exact different (congrArg Job.path (Option.some.inj found)).symm

theorem jobsOf_drop (numbered : Numbered state) (member : job ∈ state.jobs)
    (different : path ≠ job.path) : (state.drop job.id).jobsOf path = state.jobsOf path := by
  refine jobsOf_filter fun mine isMine own => ?_
  simpa using id_ne_of_path_ne numbered isMine member (own ▸ different)

theorem jobsOf_setStage (numbered : Numbered state) (member : job ∈ state.jobs)
    (different : path ≠ job.path) (stage : Stage) :
    (state.setStage job.id stage).jobsOf path = state.jobsOf path := by
  have paths : ∀ mine : Job,
      (if mine.id = job.id then { mine with stage } else mine).path = mine.path := by
    intro mine
    split <;> rfl
  simp only [jobsOf, setStage, List.filter_map, Function.comp_def, paths]
  refine (List.map_congr_left fun mine isMine => ?_).trans (List.map_id _)
  obtain ⟨isMine, own⟩ := List.mem_filter.mp isMine
  have own : mine.path = path := by simpa using own
  rw [if_neg (id_ne_of_path_ne numbered isMine member (own ▸ different)), id]

end

/-- An event is about a path, or ends the service. -/
inductive Concerns (state : State) (path : String) : Event → Prop
  | notice {notice : Notice} (about : notice.path = path) : Concerns state path (.notice notice)
  | job {event : Event} {job : Job} (wakes : Wakes state event job) (own : job.path = path) :
      Concerns state path event
  | forget : Concerns state path (.forget path)
  | close : Concerns state path .close

section

variable {hasReader : Bool} {state next : State} {path : String} {event : Event}

theorem jobsOf_of_step (step : Step hasReader state event next) (numbered : Numbered state)
    (apart : ¬ Concerns state path event) : next.jobsOf path = state.jobsOf path := by
  have elsewhere : ∀ notice, event = .notice notice → path ≠ notice.path := by
    rintro notice rfl rfl
    exact apart (.notice rfl)
  have otherJob : ∀ job, Wakes state event job → job ∈ state.jobs ∧ path ≠ job.path := by
    intro job wakes
    refine ⟨List.mem_of_find?_eq_some wakes.job?, ?_⟩
    rintro rfl
    exact apart (.job wakes rfl)
  cases step with
  | ignored _ | forgotten => rfl
  | opened _ | edited _ | changed _ | wanted _ _ => exact jobsOf_schedule (elsewhere _ rfl)
  | deleted _ => exact jobsOf_cancel (elsewhere _ rfl)
  | closed => exact absurd .close apart
  | dropped wakes _ | failed wakes _ | accepted wakes _ =>
    exact jobsOf_drop numbered (otherJob _ wakes).1 (otherJob _ wakes).2
  | unread wakes _ _ =>
    exact jobsOf_drop numbered (otherJob _ wakes).1 (otherJob _ wakes).2
  | reading _ wakes _ _ | building wakes _ _ | loaded wakes _ =>
    exact jobsOf_setStage numbered (otherJob _ wakes).1 (otherJob _ wakes).2 _
  | rearmed wakes _ _ _ _ =>
    rw [jobsOf_schedule (otherJob _ wakes).2]
    exact jobsOf_drop numbered (otherJob _ wakes).1 (otherJob _ wakes).2

/-- A step that does not concern a file does nothing to it and nothing for it. -/
theorem file_of_step (numbered : Numbered state) (apart : ¬ Concerns state path event) :
    (state.step hasReader event).file path = state.file path := by
  have step := step_spec hasReader state event
  refine file_congr ?_ (jobsOf_of_step step numbered apart) (closed_of_step step ?_)
  · by_contra changed
    rcases changed_by step changed with ⟨notice, rfl, about⟩ | rfl | ⟨job, wakes, own⟩
    · exact apart (.notice about)
    · exact apart .forget
    · exact apart (.job wakes own)
  · rintro rfl
    exact apart .close

theorem effects_of_apart (apart : ¬ Concerns state path event) :
    (state.effects hasReader event).filter (·.path == path) = [] := by
  refine List.filter_eq_nil_iff.mpr fun effect isEffect => ?_
  obtain ⟨job, wakes, own⟩ := effect_of_job isEffect
  intro same
  exact apart (.job wakes (own.trans (by simpa using same)))

end

/-! ## Files that look the same -/

section

variable {left right : State} {path : String}

theorem contains_eq (state : State) (path : String) :
    state.registry.contains path = (state.file path).entry.isSome := by
  simp [Registry.contains, file]

/-- The entries of a file that looks the same differ at most in their births. -/
theorem entries_of_file_eq (same : left.file path = right.file path) :
    (left.registry.get? path = none ∧ right.registry.get? path = none) ∨
      ∃ entry birth, left.registry.get? path = some entry ∧
        right.registry.get? path = some { entry with birth } := by
  have entries : (left.registry.get? path).map Entry.anonymous =
      (right.registry.get? path).map Entry.anonymous := congrArg File.entry same
  cases known : left.registry.get? path with
  | none =>
    rw [known, Option.map_none] at entries
    exact .inl ⟨rfl, Option.map_eq_none_iff.mp entries.symm⟩
  | some entry =>
    rw [known, Option.map_some] at entries
    obtain ⟨twin, known', same⟩ := Option.map_eq_some_iff.mp entries.symm
    have eq : twin = { entry with birth := twin.birth } := by
      simpa [Entry.anonymous] using congrArg (fun e : Entry => { e with birth := twin.birth }) same
    exact .inr ⟨entry, twin.birth, rfl, eq ▸ known'⟩

end

/-- A file looks the same in two states, and these are the jobs in one place of it. -/
structure Twins (path : String) (place : Nat) (left right : State) (job twin : Job) : Prop where
  same : left.file path = right.file path
  leftNumbered : Numbered left
  rightNumbered : Numbered right
  leftAt : left.jobAt? path place = some job
  rightAt : right.jobAt? path place = some twin

/-- A file looks the same afterwards, and the same was done. -/
def SameFor (path : String) (left right : State × List Effect) : Prop :=
  left.1.file path = right.1.file path ∧ left.2 = right.2

namespace Twins

variable {left right : State} {path : String} {place : Nat} {job twin : Job}

theorem works (twins : Twins path place left right job twin) :
    job.stage.work (left.registry.get? path) = twin.stage.work (right.registry.get? path) := by
  have works : (left.file path).works[place]? = (right.file path).works[place]? := by
    rw [twins.same]
  have leftAt : (left.jobsOf path)[place]? = some job := twins.leftAt
  have rightAt : (right.jobsOf path)[place]? = some twin := twins.rightAt
  simpa [file, leftAt, rightAt] using works

theorem drop (twins : Twins path place left right job twin) :
    (left.drop job.id).file path = (right.drop twin.id).file path := by
  rw [file_drop twins.leftNumbered twins.leftAt, file_drop twins.rightNumbered twins.rightAt,
    twins.same]

theorem modify (twins : Twins path place left right job twin) {change : Entry → Entry}
    (impartial : Entry.Impartial change) :
    Twins path place (left.modify path change) (right.modify path change) job twin where
  same := by rw [file_modify _ _ impartial, file_modify _ _ impartial, twins.same]
  leftNumbered := ⟨twins.leftNumbered.unique, twins.leftNumbered.issued⟩
  rightNumbered := ⟨twins.rightNumbered.unique, twins.rightNumbered.issued⟩
  leftAt := twins.leftAt
  rightAt := twins.rightAt

theorem startBuild (twins : Twins path place left right job twin) :
    SameFor path (left.startBuild job.id path) (right.startBuild twin.id path) := by
  unfold State.startBuild
  rcases entries_of_file_eq twins.same with ⟨unknown, unknown'⟩ | ⟨entry, birth, known, known'⟩
  · simp only [unknown, unknown']
    exact ⟨twins.drop, rfl⟩
  · simp only [known, known']
    refine ⟨?_, rfl⟩
    rw [file_setStage twins.leftNumbered twins.leftAt,
      file_setStage twins.rightNumbered twins.rightAt, twins.same, known, known']
    simp [Stage.work]

theorem fire (twins : Twins path place left right job twin) (hasReader : Bool) :
    SameFor path (left.fire hasReader job.id path) (right.fire hasReader twin.id path) := by
  unfold State.fire
  rcases entries_of_file_eq twins.same with ⟨unknown, unknown'⟩ | ⟨entry, birth, known, known'⟩
  · simp only [unknown, unknown']
    exact ⟨twins.drop, rfl⟩
  · simp only [known, known']
    split
    · exact twins.startBuild
    split
    · refine ⟨?_, rfl⟩
      rw [file_setStage twins.leftNumbered twins.leftAt,
        file_setStage twins.rightNumbered twins.rightAt, twins.same, known, known']
      simp [Stage.work]
    · exact (twins.modify (.load entry.text)).startBuild

/-- The entry that a job works for is still there in both states or in neither. -/
theorem entries (twins : Twins path place left right job twin) {birth birth' : Nat}
    (current : (left.registry.get? path).any (·.birth == birth) =
      (right.registry.get? path).any (·.birth == birth')) :
    (left.entryOf? path birth = none ∧ right.entryOf? path birth' = none) ∨
      ∃ entry other, left.entryOf? path birth = some entry ∧
        right.entryOf? path birth' = some { entry with birth := other } := by
  unfold entryOf?
  rcases entries_of_file_eq twins.same with ⟨unknown, unknown'⟩ | ⟨entry, other, known, known'⟩
  · simp [unknown, unknown']
  · simp only [known, known', Option.any_some] at current ⊢
    by_cases same : entry.birth = birth
    · have same' : other = birth' := by simpa [same] using current
      exact .inr ⟨entry, other, by simp [same], by simp [same']⟩
    · have same' : other ≠ birth' := by simpa [same] using current
      exact .inl ⟨by simp [same], by simp [same']⟩

theorem finishRead (twins : Twins path place left right job twin) {birth birth' generation : Nat}
    (current : (left.registry.get? path).any (·.birth == birth) =
      (right.registry.get? path).any (·.birth == birth'))
    (result : Except ReadFailure String) :
    SameFor path (left.finishRead job.id path birth generation result)
      (right.finishRead twin.id path birth' generation result) := by
  rcases twins.entries current with ⟨unknown, unknown'⟩ | ⟨entry, other, known, known'⟩
  · rcases result with (_ | _) | _
    all_goals
      simp only [State.finishRead, unknown, unknown']
      exact ⟨twins.drop, rfl⟩
  · cases result with
    | ok text =>
      simp only [State.finishRead, known, known']
      split
      · exact (twins.modify (.load text)).startBuild
      · exact twins.startBuild
    | error failure =>
      cases failure with
      | broken => exact ⟨twins.drop, rfl⟩
      | unreadable =>
        simp only [State.finishRead, known, known']
        split
        · exact (twins.modify (.load entry.text)).startBuild
        split
        · have impartial : Entry.Impartial fun entry =>
              { entry with needsReload := false, dirty := false } :=
            ⟨fun _ => rfl, fun _ _ => rfl⟩
          exact ⟨(twins.modify impartial).drop, rfl⟩
        · exact ⟨twins.drop, rfl⟩

theorem finishBuild (twins : Twins path place left right job twin) {birth birth' generation : Nat}
    (current : (left.registry.get? path).any (·.birth == birth) =
      (right.registry.get? path).any (·.birth == birth'))
    (result : Option Built) :
    SameFor path (left.finishBuild job.id path birth generation result)
      (right.finishBuild twin.id path birth' generation result) := by
  have dropped := twins.drop
  rcases twins.entries current with ⟨unknown, unknown'⟩ | ⟨entry, other, known, known'⟩
  · simp only [State.finishBuild, unknown, unknown']
    exact ⟨dropped, rfl⟩
  · cases result with
    | none =>
      simp only [State.finishBuild, known, known']
      split
      · refine ⟨?_, rfl⟩
        have impartial : Entry.Impartial fun entry => { entry with dirty := false } :=
          ⟨fun _ => rfl, fun _ _ => rfl⟩
        rw [file_modify _ _ impartial, file_modify _ _ impartial, dropped]
      · exact ⟨dropped, rfl⟩
    | some built =>
      have armed : (left.drop job.id).isArmed path = (right.drop twin.id).isArmed path := by
        rw [isArmed_eq, isArmed_eq, dropped]
      have rebuilding :
          (left.drop job.id).rebuilding path = (right.drop twin.id).rebuilding path := by
        rw [rebuilding_eq, rebuilding_eq, dropped]
      simp only [State.finishBuild, known, known', armed, rebuilding]
      split
      · refine ⟨?_, rfl⟩
        rw [file_modify _ _ (.accept built), file_modify _ _ (.accept built), dropped]
      split
      · refine ⟨?_, rfl⟩
        rw [file_schedule, file_schedule, dropped]
      · exact ⟨dropped, rfl⟩

end Twins

section

variable {left right : State} {path : String} {hasReader : Bool}

theorem file_notify_eq (leftValid : Valid left) (rightValid : Valid right)
    (same : left.file path = right.file path) {notice : Notice} (about : notice.path = path) :
    (left.notify notice).file path = (right.notify notice).file path := by
  have armed : ∀ {change : Entry → Entry}, Entry.Impartial change →
      ({ left with registry := (left.registry.ensure path).modify path change }.schedule path).file
          path =
        ({ right with registry := (right.registry.ensure path).modify path change }.schedule
          path).file path := by
    intro change impartial
    rw [file_schedule, file_schedule, file_notice leftValid path impartial,
      file_notice rightValid path impartial, same]
  have contains : left.registry.contains path = right.registry.contains path := by
    rw [contains_eq, contains_eq, same]
  cases notice with
  | opened noticed text =>
    obtain rfl : noticed = path := about
    simp only [State.notify]
    split
    · exact armed (.opening text)
    · exact same
  | edited noticed edits =>
    obtain rfl : noticed = path := about
    simp only [State.notify]
    split
    · exact armed (.change edits)
    · exact same
  | changed noticed =>
    obtain rfl : noticed = path := about
    simp only [State.notify]
    split
    · exact armed .markReload
    · exact same
  | deleted noticed =>
    obtain rfl : noticed = path := about
    simp only [State.notify, contains]
    split
    · rw [file_cancel, file_cancel, file_remove, file_remove, same]
    · exact same
  | wanted noticed =>
    obtain rfl : noticed = path := about
    simp only [State.notify, contains]
    split
    · exact same
    · exact armed .markReload

end

end Update

end Inlay
