import Inlay.Update.State

/-!
The tasks that update hints, and the tables that know of them.

A notification creates a task, which sleeps for the delay and then rebuilds its file. One table has
for each path the task that sleeps, another the set of those that read or build. To give up work
is to take it out of the tables and to tell its tasks to end. A task that is told so ends when it
next goes on, and does nothing but leave the set that it was put into; by then the table may have
another set in its place, or none.

Nobody but the functions below tells a task to end. In particular, whoever waits for all tasks to be
done waits to the end: to give up waiting would end the tasks as well, without taking them out of
the tables.

The functions below are the single steps, as those of `State` are; `State` leaves out the tables,
and has the tasks that were not told to end.
-/

namespace Inlay.Update

/-- Numbers by path, each path once, in the order in which the paths came. -/
abbrev Table := List (String × Nat)

namespace Table

def get? (table : Table) (path : String) : Option Nat := (table.find? (·.1 = path)).map (·.2)

/-- Gives a path a number. A path that is already there keeps its place. -/
def put : Table → String → Nat → Table
  | [], path, number => [(path, number)]
  | (other, old) :: rest, path, number =>
    if other = path then (path, number) :: rest else (other, old) :: put rest path number

def erase (table : Table) (path : String) : Table := table.filter (·.1 ≠ path)

def numbers (table : Table) : List Nat := table.map (·.2)

end Table

/-- A job with what its task holds on to: the set of rebuilds that it was put into when its delay
was over, and whether it was told to end. -/
structure Task extends Job where
  running : Option Nat
  cancelled : Bool
  deriving DecidableEq, Repr

structure Scheduler where
  registry : Registry
  /-- The tasks that are not done. -/
  tasks : List Task
  timers : Table
  /-- The set of rebuilds of a path, by its number. -/
  rebuilds : Table
  /-- The members of all sets that were made. -/
  sets : List (List Nat)
  issued : Nat
  closed : Bool
  deriving DecidableEq, Repr

namespace Scheduler

def initial : Scheduler := ⟨.empty, [], [], [], [], 0, false⟩

/-- What is left when the tables are left out: the tasks that were not told to end, as jobs. -/
def view (scheduler : Scheduler) : State where
  registry := scheduler.registry
  jobs := (scheduler.tasks.filter (!·.cancelled)).map (·.toJob)
  issued := scheduler.issued
  closed := scheduler.closed

/-- The task with this number, unless it is done. -/
def task? (scheduler : Scheduler) (id : Nat) : Option Task := scheduler.tasks.find? (·.id = id)

/-- The task with this number, unless it is done or was told to end. -/
def live? (scheduler : Scheduler) (id : Nat) : Option Task :=
  (scheduler.task? id).filter (!·.cancelled)

/-- Whether the timer of the path is not done. -/
def isArmed (scheduler : Scheduler) (path : String) : Bool :=
  (scheduler.timers.get? path).any fun id => (scheduler.task? id).isSome

def members (scheduler : Scheduler) (number : Nat) : List Nat := scheduler.sets.getD number []

/-- The rebuilds of the path that the table has. -/
def rebuildsOf (scheduler : Scheduler) (path : String) : List Nat :=
  (scheduler.rebuilds.get? path).elim [] scheduler.members

/-- The timer and the rebuilds of the path that the tables have. -/
def workOf (scheduler : Scheduler) (path : String) : List Nat :=
  (scheduler.timers.get? path).toList ++ scheduler.rebuildsOf path

/-- All tasks that the tables have. -/
def known (scheduler : Scheduler) : List Nat :=
  scheduler.timers.numbers ++ scheduler.rebuilds.numbers.flatMap scheduler.members

/-- Whether nothing is left to wait for. -/
def isIdle (scheduler : Scheduler) : Bool :=
  scheduler.known.all fun id => (scheduler.task? id).isNone

/-- Tells tasks to end. To one that is done it makes no difference. -/
def tell (scheduler : Scheduler) (ids : List Nat) : Scheduler :=
  { scheduler with
    tasks := scheduler.tasks.map fun task =>
      if task.id ∈ ids then { task with cancelled := true } else task }

/-- Arms a new task for the path in place of one that is delayed. -/
def schedule (scheduler : Scheduler) (path : String) : Scheduler :=
  if scheduler.closed then scheduler
  else
    let told := scheduler.tell (scheduler.timers.get? path).toList
    let task : Task := ⟨⟨scheduler.issued, path, .delayed⟩, none, false⟩
    { told with
      tasks := told.tasks ++ [task]
      timers := scheduler.timers.put path scheduler.issued
      issued := scheduler.issued + 1 }

/-- Gives up the timer and the rebuilds of the path. -/
def cancel (scheduler : Scheduler) (path : String) : Scheduler :=
  { scheduler.tell (scheduler.workOf path) with
    timers := scheduler.timers.erase path
    rebuilds := scheduler.rebuilds.erase path }

/-- Gives up everything, for good. -/
def close (scheduler : Scheduler) : Scheduler :=
  { scheduler.tell scheduler.known with closed := true, timers := [], rebuilds := [] }

/-- A task whose delay is over is no longer the timer of its path. -/
def leaveTimers (scheduler : Scheduler) (id : Nat) (path : String) : Scheduler :=
  if scheduler.timers.get? path = some id then
    { scheduler with timers := scheduler.timers.erase path }
  else scheduler

/-- The set of rebuilds of the path, which is made if there is none. -/
def ensureSet (scheduler : Scheduler) (path : String) : Scheduler × Nat :=
  match scheduler.rebuilds.get? path with
  | some number => (scheduler, number)
  | none =>
    let number := scheduler.sets.length
    ({ scheduler with
        rebuilds := scheduler.rebuilds.put path number
        sets := scheduler.sets ++ [[]] }, number)

/-- Puts a task into a set of rebuilds, which it holds on to. -/
def join (scheduler : Scheduler) (id number : Nat) : Scheduler :=
  { scheduler with
    tasks := scheduler.tasks.map fun task =>
      if task.id = id then { task with running := some number } else task
    sets := scheduler.sets.modify number (· ++ [id]) }

/-- The delay of a task is over: from a timer it becomes a rebuild. -/
def enter (scheduler : Scheduler) (id : Nat) (path : String) : Scheduler :=
  let (ensured, number) := (scheduler.leaveTimers id path).ensureSet path
  ensured.join id number

/-- A task leaves the set of rebuilds that it was put into. The table gives up a set that has become
empty, if that is the one it has. -/
def leaveSet (scheduler : Scheduler) (id : Nat) (path : String) (number : Nat) : Scheduler :=
  let left := { scheduler with sets := scheduler.sets.modify number (·.filter (· ≠ id)) }
  if (left.members number).isEmpty && left.rebuilds.get? path = some number then
    { left with rebuilds := left.rebuilds.erase path }
  else left

/-- A task is done. -/
def finish (scheduler : Scheduler) (id : Nat) : Scheduler :=
  let done := { scheduler with tasks := scheduler.tasks.filter (·.id ≠ id) }
  match scheduler.task? id with
  | some ⟨⟨_, path, _⟩, some number, _⟩ => done.leaveSet id path number
  | _ => done

/-- A task that was told to end does so. -/
def deliver (scheduler : Scheduler) (id : Nat) : Scheduler :=
  if (scheduler.task? id).any (·.cancelled) then scheduler.finish id else scheduler

def setStage (scheduler : Scheduler) (id : Nat) (stage : Stage) : Scheduler :=
  { scheduler with
    tasks := scheduler.tasks.map fun task => if task.id = id then { task with stage } else task }

def modify (scheduler : Scheduler) (path : String) (change : Entry → Entry) : Scheduler :=
  { scheduler with registry := scheduler.registry.modify path change }

/-- Changes the registry as a notification says, and arms a task. -/
def notify (scheduler : Scheduler) : Notice → Scheduler
  | .opened path text =>
    if Language.isSupported path then
      { scheduler with registry := scheduler.registry.opening path text }.schedule path
    else scheduler
  | .edited path edits =>
    if Language.isSupported path then
      { scheduler with registry := scheduler.registry.change path edits }.schedule path
    else scheduler
  | .changed path =>
    if Language.isSupported path then
      { scheduler with registry := scheduler.registry.markReload path }.schedule path
    else scheduler
  | .deleted path =>
    if scheduler.registry.contains path then
      { scheduler with registry := scheduler.registry.remove path }.cancel path
    else scheduler
  | .wanted path =>
    if scheduler.registry.contains path then scheduler
    else { scheduler with registry := scheduler.registry.markReload path }.schedule path

/-- The entry that a task works for, unless it is gone or replaced. -/
def entryOf? (scheduler : Scheduler) (path : String) (birth : Nat) : Option Entry :=
  (scheduler.registry.get? path).filter (·.birth = birth)

/-- Starts to build from the current text of the entry. -/
def startBuild (scheduler : Scheduler) (id : Nat) (path : String) : Scheduler × List Effect :=
  match scheduler.registry.get? path with
  | none => (scheduler.finish id, [])
  | some entry =>
    (scheduler.setStage id (.building entry.birth entry.generation entry.text),
      [.build path entry.text entry.generation])

/-- The delay of a task is over. Without a reader a file that should be read keeps its text. -/
def fire (hasReader : Bool) (scheduler : Scheduler) (id : Nat) (path : String) :
    Scheduler × List Effect :=
  let entered := scheduler.enter id path
  match entered.registry.get? path with
  | none => (entered.finish id, [])
  | some entry =>
    if !entry.needsReload then entered.startBuild id path
    else if hasReader then
      (entered.setStage id (.reading entry.birth entry.generation), [.read path])
    else (entered.modify path (·.load entry.text)).startBuild id path

/-- A read came to its end. -/
def finishRead (scheduler : Scheduler) (id : Nat) (path : String) (birth generation : Nat)
    (result : Except ReadFailure String) : Scheduler × List Effect :=
  match result, scheduler.entryOf? path birth with
  | .error .broken, _ => (scheduler.finish id, [])
  | _, none => (scheduler.finish id, [])
  | .ok text, some entry =>
    if entry.needsReload then (scheduler.modify path (·.load text)).startBuild id path
    else scheduler.startBuild id path
  | .error .unreadable, some entry =>
    if entry.loaded && !entry.pending.isEmpty then
      (scheduler.modify path (·.load entry.text)).startBuild id path
    else if entry.generation = generation then
      ((scheduler.modify path fun entry =>
        { entry with needsReload := false, dirty := false }).finish id, [])
    else (scheduler.finish id, [])

/-- Whether a task other than this one will still bring a result for the path. -/
def isPending (scheduler : Scheduler) (id : Nat) (path : String) : Bool :=
  scheduler.isArmed path || (scheduler.rebuildsOf path).any (· ≠ id)

/-- A build came to its end, with a result unless it failed. -/
def finishBuild (scheduler : Scheduler) (id : Nat) (path : String) (birth generation : Nat)
    (result : Option Built) : Scheduler × List Effect :=
  match result, scheduler.entryOf? path birth with
  | _, none => (scheduler.finish id, [])
  | none, some entry =>
    if entry.generation = generation then
      ((scheduler.modify path fun entry => { entry with dirty := false }).finish id, [])
    else (scheduler.finish id, [])
  | some built, some entry =>
    if entry.generation = generation then
      ((scheduler.modify path (State.accept built)).finish id,
        if State.replaces built entry then [.changed path] else [])
    else if entry.dirty && !scheduler.isPending id path then
      ((scheduler.schedule path).finish id, [])
    else (scheduler.finish id, [])

end Scheduler

end Inlay.Update
