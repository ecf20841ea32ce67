import Inlay.Update.Scheduler

/-!
A service at work: notifications arrive from the thread that runs it and from others, tasks wait
for their delay, and reads and answers of the oracle can be held back.

Work that is ready is done in the order in which it became ready. Time passes only when nothing is
ready; then the clock moves on to the next delay that ends, and delays that end together wake
their tasks in the order in which they began. A held gate keeps those that reach it until it is
opened; they go on in the order in which they came. A task that is told to end becomes ready to do
so, wherever it waits.

Notifications that arrive before the service is bound to its thread are held back, and applied in
order as soon as it is.
-/

namespace Inlay

open Inlay.Update

/-- Work that is ready to be done. -/
inductive Ready
  /-- A notification from another thread. -/
  | notice (notice : Notice)
  /-- A new task begins its delay. -/
  | start (task : Nat)
  /-- A task goes on after its delay or after a gate, or because it was told to end. -/
  | resume (task : Nat)
  deriving DecidableEq, Repr

/-- Holds tasks back while it is closed. -/
structure Gate where
  isOpen : Bool
  waiting : List Nat
  deriving DecidableEq, Repr

/-- What a build has still to ask, and the answers so far. -/
inductive Progress
  /-- The build will fail. -/
  | failing
  | asking (source : Source) (remaining : List Query) (answers : List (Option String))

/-- What a file gives when it is read. -/
inductive Content
  | text (text : String)
  | failure (failure : ReadFailure)
  deriving DecidableEq, Repr

/-- What a service works with. A text for which `fails` holds cannot be built. -/
structure Workshop where
  features : Features
  delay : Nat
  oracle : Oracle
  parser : Parser
  hasReader : Bool
  fails : String → Bool

structure Session where
  scheduler : Scheduler
  bound : Bool
  backlog : List Notice
  ready : List Ready
  /-- When a delay ends, and whose. -/
  sleeping : List (Nat × Nat)
  clock : Nat
  oracleGate : Gate
  readerGate : Gate
  progress : List (Nat × Progress)
  files : List (String × Content)
  /-- What happened since the effects were last taken, in order. -/
  effects : List Effect
  oracleClosed : Nat

namespace Session

def initial (files : List (String × Content)) : Session :=
  { scheduler := .initial, bound := false, backlog := [], ready := [], sleeping := [], clock := 0,
    oracleGate := ⟨true, []⟩, readerGate := ⟨true, []⟩, progress := [], files, effects := [],
    oracleClosed := 0 }

/-- How far the updates have come. -/
def state (session : Session) : State := session.scheduler.view

/-- Takes over a step of the scheduler. Tasks that were told to end become ready to do so, and a
task that was armed to begin its delay. -/
def update (session : Session) (next : Scheduler × List Effect) : Session :=
  let told := next.1.tasks.filter fun task =>
    task.cancelled && (session.scheduler.live? task.id).isSome
  let armed := (List.range next.1.issued).drop session.scheduler.issued
  { session with
    scheduler := next.1
    ready := session.ready ++ told.map (.resume ·.id) ++ armed.map .start
    effects := session.effects ++ next.2 }

def apply (session : Session) (notice : Notice) : Session :=
  session.update (session.scheduler.notify notice, [])

/-- Applies the notifications that were held back. -/
def drain (session : Session) : Session :=
  session.backlog.foldl apply { session with backlog := [] }

/-- Binds the service to its thread. -/
def enter (session : Session) : Session := { session with bound := true }.drain

/-- A notification on the thread that runs the service. The first one binds it. -/
def notify (session : Session) (notice : Notice) : Session := session.enter.apply notice

/-- A notification from another thread, or from anywhere before there is a thread to run on. -/
def post (session : Session) (notice : Notice) : Session :=
  if session.bound then { session with ready := session.ready ++ [.notice notice] }
  else { session with backlog := session.backlog ++ [notice] }

/-- The notification that asking for hints gives rise to. -/
def wanted? (session : Session) (path : String) : Option Notice :=
  if !session.scheduler.registry.contains path && Language.isSupported path then some (.wanted path)
  else none

def hints (session : Session) (path : String) : List Hint :=
  session.scheduler.registry.hints path

/-- What reading a path gives now. -/
def contentOf (session : Session) (path : String) : Except ReadFailure String :=
  match session.files.lookup path with
  | some (.text text) => .ok text
  | some (.failure failure) => .error failure
  | none => .error .unreadable

def setProgress (session : Session) (id : Nat) (progress : Progress) : Session :=
  { session with progress := (id, progress) :: session.progress.filter (·.1 ≠ id) }

section

variable (shop : Workshop)

/-- How a build begins: with a tree and its questions, or bound to fail. -/
def beginning (path text : String) (version : Nat) : Progress :=
  if shop.fails text then .failing
  else
    match Language.ofPath? path with
    | none => .failing
    | some language =>
      match shop.parser language text with
      | none => .failing
      | some root =>
        let source : Source := { path, text, language, root, version }
        .asking source (Plan.queries source shop.features) []

/-- What a finished build gives. -/
def outcome : Progress → Option Built
  | .failing => none
  | .asking source _ answers => (Build.finish source shop.features answers).toOption

/-- Puts all remaining questions to the oracle. -/
def answerAll : Progress → Progress
  | .failing => .failing
  | .asking source remaining answers =>
    .asking source [] (answers ++ remaining.map (shop.oracle source))

/-- Puts the next question to the oracle. -/
def answerNext : Progress → Progress
  | .asking source (query :: remaining) answers =>
    .asking source remaining (answers ++ [shop.oracle source query])
  | progress => progress

/-- Whether a build has something to do that the oracle's gate holds back. -/
def Progress.waits : Progress → Bool
  | .failing => true
  | .asking _ remaining _ => !remaining.isEmpty

def finishBuild (session : Session) (job : Job) (birth generation : Nat) (progress : Progress) :
    Session :=
  let session := { session with progress := session.progress.filter (·.1 ≠ job.id) }
  session.update
    (session.scheduler.finishBuild job.id job.path birth generation (outcome shop progress))

/-- Goes on with a build until it ends or is held back. -/
def goOn (session : Session) (job : Job) (birth generation : Nat) (progress : Progress) :
    Session :=
  if session.oracleGate.isOpen then
    finishBuild shop session job birth generation (answerAll shop progress)
  else if Progress.waits progress then
    let session := session.setProgress job.id progress
    { session with
      oracleGate := { session.oracleGate with waiting := session.oracleGate.waiting ++ [job.id] } }
  else finishBuild shop session job birth generation progress

/-- A build that was let through the gate: the question it waited for is answered. -/
def continueBuild (session : Session) (job : Job) (birth generation : Nat) : Session :=
  match session.progress.lookup job.id with
  | none => session
  | some .failing => finishBuild shop session job birth generation .failing
  | some progress => goOn shop session job birth generation (answerNext shop progress)

/-- Starts on a task that has just reached the stage of building. -/
def beginBuild (session : Session) (id : Nat) : Session :=
  match session.scheduler.live? id with
  | some task =>
    match task.stage with
    | .building birth generation text =>
      goOn shop session task.toJob birth generation (beginning shop task.path text generation)
    | _ => session
  | none => session

/-- Reads the file of a task and goes on to build. -/
def read (session : Session) (job : Job) (birth generation : Nat) : Session :=
  let result := session.contentOf job.path
  beginBuild shop
    (session.update (session.scheduler.finishRead job.id job.path birth generation result)) job.id

/-- Goes on with a task whose delay is over. -/
def fire (session : Session) (job : Job) : Session :=
  let session := session.update (session.scheduler.fire shop.hasReader job.id job.path)
  match session.scheduler.live? job.id with
  | none => session
  | some task =>
    match task.stage with
    | .reading birth generation =>
      if session.readerGate.isOpen then read shop session task.toJob birth generation
      else
        { session with
          readerGate :=
            { session.readerGate with waiting := session.readerGate.waiting ++ [task.id] } }
    | _ => beginBuild shop session task.id

/-- A task that was told to end does so. -/
def deliver (session : Session) (id : Nat) : Session :=
  session.update (session.scheduler.deliver id, [])

/-- Goes on with a task, if only to its end. -/
def resume (session : Session) (id : Nat) : Session :=
  match session.scheduler.live? id with
  | none => session.deliver id
  | some task =>
    match task.stage with
    | .delayed => fire shop session task.toJob
    | .reading birth generation => read shop session task.toJob birth generation
    | .building birth generation _ => continueBuild shop session task.toJob birth generation

/-- Begins the delay of a task. Without a delay the task goes on after what is ready now. -/
def start (session : Session) (id : Nat) : Session :=
  if (session.scheduler.live? id).isNone then session.deliver id
  else if shop.delay = 0 then { session with ready := session.ready ++ [.resume id] }
  else { session with sleeping := session.sleeping ++ [(session.clock + shop.delay, id)] }

def perform (session : Session) : Ready → Session
  | .notice notice => session.apply notice
  | .start id => start shop session id
  | .resume id => resume shop session id

/-- Does work that is ready, at most `fuel` pieces of it. -/
def run : (fuel : Nat) → Session → Session
  | 0, session => session
  | fuel + 1, session =>
    match session.ready with
    | [] => session
    | work :: rest => run fuel (perform shop { session with ready := rest } work)

/-- While no time passes a task becomes ready at most three times: to begin, to go on, and to end if
it is told so. Each notification and each stale result arms one more task, which cannot become stale
meanwhile. -/
def workLimit (session : Session) : Nat :=
  8 * (session.ready.length + session.scheduler.tasks.length + 1)

/-- Does all work that needs no time to pass and no gate to open. -/
def settle (session : Session) : Session := run shop session.workLimit session

/-- The delays of tasks that are to go on. -/
def delays (session : Session) : List (Nat × Nat) :=
  session.sleeping.filter fun (_, id) => (session.scheduler.live? id).isSome

/-- When the next delay ends. -/
def nextDue? (session : Session) : Option Nat := (session.delays.map (·.1)).min?

/-- Moves the clock and wakes the tasks whose delay ends then. -/
def wake (session : Session) (time : Nat) : Session :=
  let due := session.delays.filter (·.1 ≤ time)
  { session with
    clock := time
    sleeping := session.delays.filter (time < ·.1)
    ready := session.ready ++ due.map fun (_, id) => .resume id }

/-- Lets time pass until the limit, or without one until no delay is left. -/
def elapse (limit : Option Nat) : (fuel : Nat) → Session → Session
  | 0, session => session
  | fuel + 1, session =>
    match session.nextDue? with
    | none => session
    | some time =>
      if limit.any (· < time) then session
      else elapse limit fuel (settle shop (session.wake time))

/-- Every delay wakes a task, and a task that wakes arms at most one more. -/
def timeLimit (session : Session) : Nat :=
  4 * (session.ready.length + session.scheduler.tasks.length + 1)

/-- Lets some milliseconds pass. -/
def advance (session : Session) (milliseconds : Nat) : Session :=
  let time := session.clock + milliseconds
  let session := settle shop session
  { elapse shop (some time) session.timeLimit session with clock := time }

/-- Waits for the tasks in the tables: lets time pass until none is left that could go on. Without a
task there is nothing to wait for, so that not even work that is ready is done. -/
def flush (session : Session) : Session :=
  if session.scheduler.isIdle then session
  else
    let session := settle shop session
    elapse shop none session.timeLimit session

/-- Gives up all tasks and closes the oracle. What other threads said before still counts, but is
heard now only if there was a task whose end is waited for. -/
def close (session : Session) : Session :=
  let closed :=
    { session.update (session.scheduler.close, []) with
      progress := []
      oracleClosed := session.oracleClosed + 1 }
  if session.scheduler.isIdle then closed else settle shop closed

end

/-- Which of the two gates. -/
inductive GateName
  | oracle
  | reader
  deriving DecidableEq, Repr

/-- Opens or closes a gate. -/
def setGate (session : Session) (name : GateName) (isOpen : Bool) : Session :=
  let gate :=
    match name with
    | .oracle => session.oracleGate
    | .reader => session.readerGate
  let released := if isOpen then gate.waiting.map Ready.resume else []
  let gate : Gate := ⟨isOpen, if isOpen then [] else gate.waiting⟩
  let session := { session with ready := session.ready ++ released }
  match name with
  | .oracle => { session with oracleGate := gate }
  | .reader => { session with readerGate := gate }

def write (session : Session) (path : String) (content : Content) : Session :=
  { session with files := (path, content) :: session.files.filter (·.1 ≠ path) }

def unlink (session : Session) (path : String) : Session :=
  { session with files := session.files.filter (·.1 ≠ path) }

/-- Takes a path out of the registry and leaves its tasks alone. -/
def forget (session : Session) (path : String) : Session :=
  let scheduler := session.scheduler
  { session with
    scheduler := { scheduler with registry := scheduler.registry.remove path } }

/-- What happened since this was last asked. -/
def takeEffects (session : Session) : Session × List Effect :=
  ({ session with effects := [] }, session.effects)

end Session

end Inlay
