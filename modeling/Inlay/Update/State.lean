import Inlay.Build.Result
import Inlay.Language
import Inlay.Registry

/-!
Updates of hints, one job at a time for each burst of notifications.

A notification changes the registry and arms a job for its file, in place of one that was still
delayed. When the delay is over the job reads the file if its text is out of date and builds its
hints. Several jobs of a file may read or build at once. A result counts only if no notification
came in between; otherwise a new job is armed, unless one is already on its way.

The functions below are the single steps. What happens between them, and in which order jobs are
woken, read and built, is left open. So is how the jobs of a path are known: `Scheduler`, which
runs, keeps tables of its tasks, and what it does to them comes to these steps.
-/

namespace Inlay

/-- What the service is told about a file. -/
inductive Notice
  | opened (path text : String)
  | edited (path : String) (edits : List Edit)
  /-- The file was created or changed outside. -/
  | changed (path : String)
  | deleted (path : String)
  /-- Hints were asked for of a file that was not known. -/
  | wanted (path : String)
  deriving DecidableEq, Repr

def Notice.path : Notice → String
  | opened path _ | edited path _ | changed path | deleted path | wanted path => path

namespace Update

/-- Where a job stands. `birth` and `generation` are those of the entry it works for. -/
inductive Stage
  | delayed
  | reading (birth generation : Nat)
  | building (birth generation : Nat) (text : String)
  deriving DecidableEq, Repr

structure Job where
  id : Nat
  path : String
  stage : Stage
  deriving DecidableEq, Repr

def Job.isDelayed (job : Job) : Bool := job.stage == .delayed

/-- What a step does besides changing the state. -/
inductive Effect
  | read (path : String)
  | build (path text : String) (version : Nat)
  | changed (path : String)
  deriving DecidableEq, Repr

/-- Why a read failed. -/
inductive ReadFailure
  /-- The file is not there or cannot be decoded. -/
  | unreadable
  /-- The reader itself broke down, which ends the job. -/
  | broken
  deriving DecidableEq, Repr

structure State where
  registry : Registry
  jobs : List Job
  issued : Nat
  closed : Bool
  deriving DecidableEq, Repr

namespace State

def initial : State := ⟨.empty, [], 0, false⟩

def job? (state : State) (id : Nat) : Option Job := state.jobs.find? (·.id = id)

/-- Whether a job of the path is delayed. -/
def isArmed (state : State) (path : String) : Bool :=
  state.jobs.any fun job => job.path == path && job.isDelayed

/-- How many jobs of the path read or build. -/
def rebuilding (state : State) (path : String) : Nat :=
  (state.jobs.filter fun job => job.path == path && !job.isDelayed).length

/-- Arms a new job for the path in place of a delayed one. -/
def schedule (state : State) (path : String) : State :=
  if state.closed then state
  else
    let others := state.jobs.filter fun job => !(job.path == path && job.isDelayed)
    { state with
      jobs := others ++ [⟨state.issued, path, .delayed⟩]
      issued := state.issued + 1 }

/-- Drops all jobs of the path. -/
def cancel (state : State) (path : String) : State :=
  { state with jobs := state.jobs.filter (·.path ≠ path) }

/-- Ends a job. -/
def drop (state : State) (id : Nat) : State :=
  { state with jobs := state.jobs.filter (·.id ≠ id) }

def setStage (state : State) (id : Nat) (stage : Stage) : State :=
  { state with
    jobs := state.jobs.map fun job => if job.id = id then { job with stage } else job }

def modify (state : State) (path : String) (change : Entry → Entry) : State :=
  { state with registry := state.registry.modify path change }

/-- Changes the registry as a notification says, and arms a job. -/
def notify (state : State) : Notice → State
  | .opened path text =>
    if Language.isSupported path then
      { state with registry := state.registry.opening path text }.schedule path
    else state
  | .edited path edits =>
    if Language.isSupported path then
      { state with registry := state.registry.change path edits }.schedule path
    else state
  | .changed path =>
    if Language.isSupported path then
      { state with registry := state.registry.markReload path }.schedule path
    else state
  | .deleted path =>
    if state.registry.contains path then
      { state with registry := state.registry.remove path }.cancel path
    else state
  | .wanted path =>
    if state.registry.contains path then state
    else { state with registry := state.registry.markReload path }.schedule path

/-- The entry that a job works for, unless it is gone or replaced. -/
def entryOf? (state : State) (path : String) (birth : Nat) : Option Entry :=
  (state.registry.get? path).filter (·.birth = birth)

/-- Starts to build from the current text of the entry. -/
def startBuild (state : State) (id : Nat) (path : String) : State × List Effect :=
  match state.registry.get? path with
  | none => (state.drop id, [])
  | some entry =>
    (state.setStage id (.building entry.birth entry.generation entry.text),
      [.build path entry.text entry.generation])

/-- The delay of a job is over. Without a reader a file that should be read keeps its text. -/
def fire (hasReader : Bool) (state : State) (id : Nat) (path : String) : State × List Effect :=
  match state.registry.get? path with
  | none => (state.drop id, [])
  | some entry =>
    if !entry.needsReload then state.startBuild id path
    else if hasReader then
      (state.setStage id (.reading entry.birth entry.generation), [.read path])
    else (state.modify path (·.load entry.text)).startBuild id path

/-- A read came to its end. -/
def finishRead (state : State) (id : Nat) (path : String) (birth generation : Nat)
    (result : Except ReadFailure String) : State × List Effect :=
  match result, state.entryOf? path birth with
  | .error .broken, _ => (state.drop id, [])
  | _, none => (state.drop id, [])
  | .ok text, some entry =>
    if entry.needsReload then (state.modify path (·.load text)).startBuild id path
    else state.startBuild id path
  | .error .unreadable, some entry =>
    if entry.loaded && !entry.pending.isEmpty then
      (state.modify path (·.load entry.text)).startBuild id path
    else if entry.generation = generation then
      ((state.modify path fun entry => { entry with needsReload := false, dirty := false }).drop id,
        [])
    else (state.drop id, [])

/-- The hints of an entry after a result was accepted. Those of a text with errors are used only
if there are no others. -/
def accept (built : Built) (entry : Entry) : Entry :=
  if built.hasErrors && !entry.hints.isEmpty then { entry with dirty := false }
  else { entry with dirty := false, hints := built.hints }

/-- Whether the hints of an entry are replaced by a result. -/
def replaces (built : Built) (entry : Entry) : Bool := !(built.hasErrors && !entry.hints.isEmpty)

/-- A build came to its end, with a result unless it failed. -/
def finishBuild (state : State) (id : Nat) (path : String) (birth generation : Nat)
    (result : Option Built) : State × List Effect :=
  let done := state.drop id
  match result, state.entryOf? path birth with
  | _, none => (done, [])
  | none, some entry =>
    if entry.generation = generation then
      (done.modify path fun entry => { entry with dirty := false }, [])
    else (done, [])
  | some built, some entry =>
    if entry.generation = generation then
      (done.modify path (accept built), if replaces built entry then [.changed path] else [])
    else if entry.dirty && !done.isArmed path && done.rebuilding path = 0 then
      (done.schedule path, [])
    else (done, [])

/-- No job is started or finished any more. -/
def close (state : State) : State := { state with closed := true, jobs := [] }

end State

end Update

end Inlay
