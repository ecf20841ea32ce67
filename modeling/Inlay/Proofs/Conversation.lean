import Inlay.Proofs.Requests
import Inlay.Proofs.Stream

/-!
The server is asked about the text at hand.

Calls come at any time, and each may be put aside wherever it waits: for its turn, for the server
to start, for a message to be taken, for its answer. The one that has its turn brings the server's
text of its file up to date, gives the turn up and asks, with no wait between the last two. So the
server holds the text of the call when it comes to the query, whatever other calls do.

A call that has its turn is taken to go on: it ends early only if the server cannot be started, and
is not given up while a message is taken. Had it been given up between the message that closes its
file and the one that opens it again, the client would still take the file for open with its old
text. A call that waits for its answer may be given up at any time.
-/

namespace Inlay.TypeServer

/-- What a call waits for while it has its turn: for the server to start, or for the message that
closes or opens its file to be taken. -/
inductive Stage
  | launching
  | closing
  | opening
  deriving DecidableEq

/-- Calls on their way. Those in `queue` wait for their turn, and the numbers in `asked` are those
of queries that wait for an answer. `sent` holds what has been written since the last start, each
message with the call that it was written for. -/
structure Conversation where
  client : Client
  queue : List Call
  turn : Option (Call × Stage)
  asked : List Nat
  sent : List (Call × Message)

/-- What can happen from one wait to the next. -/
inductive Move
  | call (call : Call)
  /-- One of those in the queue gets its turn, if nobody has it. -/
  | enter (place : Nat)
  /-- The call that has its turn goes on. -/
  | proceed
  /-- The server cannot be started. -/
  | refuse
  /-- A call that has asked goes on, with an answer or without. -/
  | leave (number : Nat)
  | receive (message : Json)
  | exit
  | start
  | close

namespace Conversation

def initial : Conversation := ⟨.initial, [], none, [], []⟩

/-- Writes a message for the call that has its turn. -/
def write (talk : Conversation) (call : Call) (next : Client × Message) (stage : Stage) :
    Conversation :=
  { talk with client := next.1, turn := some (call, stage), sent := talk.sent ++ [(call, next.2)] }

/-- Gives the turn up and asks the query of a call, if there is something to ask. -/
def ask (talk : Conversation) (call : Call) : Conversation :=
  match commandOf? call.query with
  | none => { talk with turn := none }
  | some command =>
    match talk.client.request command (location call.file call.query) with
    | (client, .error _) => { talk with client, turn := none }
    | (client, .ok message) =>
      { talk with
        client, turn := none
        asked := talk.asked ++ [message.seq]
        sent := talk.sent ++ [(call, message)] }

/-- Turns to a file whose text may have to be brought up to date. -/
def attend (talk : Conversation) (call : Call) : Conversation :=
  if talk.client.openFiles.lookup call.file = some call.text then talk.ask call
  else if talk.client.isOpen call.file then
    talk.write call (talk.client.closeFile call.file) .closing
  else talk.write call (talk.client.openFile call.file call.text) .opening

def launch (talk : Conversation) : Conversation :=
  { talk with client := talk.client.start, sent := [] }

/-- No call is on its way. -/
def isIdle (talk : Conversation) : Bool :=
  talk.queue.isEmpty && talk.turn.isNone && talk.asked.isEmpty

def enter (talk : Conversation) (place : Nat) : Conversation :=
  match talk.turn, talk.queue[place]? with
  | none, some call =>
    let talk := { talk with queue := talk.queue.eraseIdx place }
    if talk.client.running then talk.attend call
    else { talk with turn := some (call, .launching) }
  | _, _ => talk

def proceed (talk : Conversation) : Conversation :=
  match talk.turn with
  | none => talk
  | some (call, .launching) => talk.launch.attend call
  | some (call, .closing) => talk.write call (talk.client.openFile call.file call.text) .opening
  | some (call, .opening) =>
    { talk with client := talk.client.record call.file call.text }.ask call

/-- The server is started and closed between calls only. -/
def step (talk : Conversation) : Move → Conversation
  | .call call => { talk with queue := talk.queue ++ [call] }
  | .enter place => talk.enter place
  | .proceed => talk.proceed
  | .refuse =>
    match talk.turn with
    | some (_, .launching) => { talk with turn := none }
    | _ => talk
  | .leave number =>
    { talk with client := talk.client.release number, asked := talk.asked.filter (· != number) }
  | .receive message => { talk with client := (talk.client.receive? message).getD talk.client.exit }
  | .exit => { talk with client := talk.client.exit }
  | .start => if talk.isIdle && !talk.client.running then talk.launch else talk
  | .close => if talk.isIdle then { talk with client := talk.client.close } else talk

/-- The conversation after some moves. -/
def after (moves : List Move) : Conversation := moves.foldl step initial

/-! ## What calls keep -/

variable {talk : Conversation} {call : Call}

/-- The text that the server should hold of a file. The table is behind where the call that has its
turn has written a message. -/
def expected (talk : Conversation) (file : String) : Option String :=
  match talk.turn with
  | some (call, .closing) =>
    if file = call.file then none else talk.client.openFiles.lookup file
  | some (call, .opening) =>
    if file = call.file then some call.text else talk.client.openFiles.lookup file
  | _ => talk.client.openFiles.lookup file

structure Coherent (talk : Conversation) : Prop where
  stream : Stream talk.sent
  numbers : ∀ entry ∈ talk.sent, entry.2.seq ≤ talk.client.seq
  stopped : talk.client.running = false → talk.client.openFiles = []
  turn : ∀ call stage, talk.turn = some (call, stage) →
    (talk.client.running = true ↔ stage ≠ .launching)
  table : talk.client.running = true → ∀ file, held file talk.sent = talk.expected file

/-- The server runs and has the texts of the table. -/
structure Ready (talk : Conversation) : Prop where
  stream : Stream talk.sent
  numbers : ∀ entry ∈ talk.sent, entry.2.seq ≤ talk.client.seq
  running : talk.client.running = true
  table : ∀ file, held file talk.sent = talk.client.openFiles.lookup file

theorem coherent_initial : initial.Coherent where
  stream := .nil
  numbers := by simp [initial]
  stopped := fun _ => rfl
  turn := by simp [initial]
  table := by simp [initial, Client.initial]

theorem numbers_concat {sent : List (Call × Message)} {message : Message} {seq : Nat}
    (numbers : ∀ entry ∈ sent, entry.2.seq ≤ seq) (next : message.seq = seq + 1) :
    ∀ entry ∈ sent ++ [(call, message)], entry.2.seq ≤ seq + 1 := by
  intro entry member
  rcases List.mem_append.mp member with old | new
  · have := numbers entry old
    omega
  · rw [List.mem_singleton.mp new]
    exact Nat.le_of_eq next

theorem Ready.coherent (ready : talk.Ready) (free : talk.turn = none) : talk.Coherent where
  stream := ready.stream
  numbers := ready.numbers
  stopped := by simp [ready.running]
  turn := by simp [free]
  table := by simpa [expected, free] using fun _ => ready.table

theorem Ready.ask (ready : talk.Ready)
    (current : talk.client.openFiles.lookup call.file = some call.text) :
    (talk.ask call).Coherent := by
  unfold Conversation.ask
  split
  · exact Ready.coherent ⟨ready.stream, ready.numbers, ready.running, ready.table⟩ rfl
  · next command query =>
    have sends : talk.client.request command (location call.file call.query) =
        ((talk.client.request command (location call.file call.query)).1,
          .ok ⟨talk.client.seq + 1, command, location call.file call.query⟩) := by
      simp [Client.request, Client.number, Client.send, ready.running]
    rw [sends]
    refine Ready.coherent ⟨.asks ready.stream ?_ query ?_, numbers_concat ready.numbers rfl,
      ready.running, ?_⟩ rfl
    · exact fun entry member => Nat.lt_succ_of_le (ready.numbers entry member)
    · rw [ready.table, current]
    · intro file
      rw [held_of_not_touches (Message.touches_query _ _ query _)]
      exact ready.table file

section Write

variable (stream : Stream talk.sent) (numbers : ∀ entry ∈ talk.sent, entry.2.seq ≤ talk.client.seq)
  (running : talk.client.running = true)
  (others : ∀ file, file ≠ call.file → held file talk.sent = talk.client.openFiles.lookup file)

include stream numbers running others

theorem coherent_closing (holds : held call.file talk.sent ≠ none) :
    (talk.write call (talk.client.closeFile call.file) .closing).Coherent where
  stream := .closes stream (fun entry member => Nat.lt_succ_of_le (numbers entry member)) holds
  numbers := numbers_concat numbers rfl
  stopped := by simp [write, Client.closeFile, Client.number, running]
  turn := by simp [write, Client.closeFile, Client.number, running]
  table := by
    intro _ file
    refine (held_close file _).trans ?_
    by_cases same : file = call.file
    · simp [expected, write, same]
    · simp [expected, write, same, others file same, Client.closeFile, Client.number]

theorem coherent_opening (lacks : held call.file talk.sent = none) :
    (talk.write call (talk.client.openFile call.file call.text) .opening).Coherent where
  stream := .opens stream (fun entry member => Nat.lt_succ_of_le (numbers entry member)) lacks
  numbers := numbers_concat numbers rfl
  stopped := by simp [write, Client.openFile, Client.number, running]
  turn := by simp [write, Client.openFile, Client.number, running]
  table := by
    intro _ file
    refine (held_open file _).trans ?_
    by_cases same : file = call.file
    · simp [expected, write, same]
    · simp [expected, write, same, others file same, Client.openFile, Client.number]

end Write

theorem Ready.attend (ready : talk.Ready) (call : Call) : (talk.attend call).Coherent := by
  have others : ∀ file, file ≠ call.file →
      held file talk.sent = talk.client.openFiles.lookup file := fun file _ => ready.table file
  have holds := ready.table call.file
  unfold Conversation.attend
  split
  · next current => exact ready.ask current
  · split
    · next opened =>
      refine coherent_closing ready.stream ready.numbers ready.running others ?_
      rw [holds]
      exact Option.isSome_iff_ne_none.mp opened
    · next unknown =>
      refine coherent_opening ready.stream ready.numbers ready.running others ?_
      rw [holds]
      exact Option.not_isSome_iff_eq_none.mp unknown

theorem turn_of_isIdle (idle : talk.isIdle = true) : talk.turn = none := by
  simp only [isIdle, Bool.and_eq_true, Option.isNone_iff_eq_none] at idle
  exact idle.1.2

namespace Coherent

theorem ready (coherent : talk.Coherent) (free : talk.turn = none)
    (running : talk.client.running = true) : talk.Ready where
  stream := coherent.stream
  numbers := coherent.numbers
  running := running
  table := by
    intro file
    rw [coherent.table running, expected, free]

theorem launch (coherent : talk.Coherent) (stopped : talk.client.running = false) :
    talk.launch.Ready where
  stream := .nil
  numbers := by simp [Conversation.launch]
  running := rfl
  table := by
    intro file
    have empty := coherent.stopped stopped
    simp [Conversation.launch, Client.start, empty, held, turns]

theorem enter (coherent : talk.Coherent) (place : Nat) : (talk.enter place).Coherent := by
  unfold Conversation.enter
  split
  · next call free found =>
    cases running : talk.client.running with
    | true =>
      have ready := coherent.ready free running
      have waiting : Ready { talk with queue := talk.queue.eraseIdx place } :=
        ⟨ready.stream, ready.numbers, ready.running, ready.table⟩
      simp only [running, if_true]
      exact waiting.attend call
    | false =>
      simp only [running]
      exact ⟨coherent.stream, coherent.numbers, coherent.stopped, by simp [running],
        by simp [running]⟩
  · exact coherent

theorem proceed (coherent : talk.Coherent) : talk.proceed.Coherent := by
  unfold Conversation.proceed
  split
  · exact coherent
  · next call turn =>
    have stopped : talk.client.running = false := by simpa using coherent.turn call _ turn
    exact (coherent.launch stopped).attend call
  · next call turn =>
    -- the server has closed the file, and the table still has its old text
    have running := (coherent.turn call _ turn).mpr (by simp)
    have table := coherent.table running
    simp only [expected, turn] at table
    refine coherent_opening coherent.stream coherent.numbers running ?_ ?_
    · intro file other
      rw [table, if_neg other]
    · rw [table, if_pos rfl]
  · next call turn =>
    -- the table catches up with the server, and the query follows at once
    have running := (coherent.turn call _ turn).mpr (by simp)
    have table := coherent.table running
    simp only [expected, turn] at table
    refine Ready.ask ⟨coherent.stream, coherent.numbers, running, ?_⟩ ?_
    · intro file
      rw [table file, Client.lookup_record]
    · rw [Client.lookup_record, if_pos rfl]

/-- Only the requests have changed. -/
theorem of_client {client : Client} (coherent : talk.Coherent) (asked : List Nat)
    (seq : client.seq = talk.client.seq) (running : client.running = talk.client.running)
    (files : client.openFiles = talk.client.openFiles) :
    Coherent { talk with client, asked } where
  stream := coherent.stream
  numbers := by simpa [seq] using coherent.numbers
  stopped := by simpa [running, files] using coherent.stopped
  turn := by simpa [running] using coherent.turn
  table := by simpa [running, files, expected] using coherent.table

theorem step (coherent : talk.Coherent) (move : Move) : (talk.step move).Coherent := by
  cases move with
  | call call =>
    exact ⟨coherent.stream, coherent.numbers, coherent.stopped, coherent.turn, coherent.table⟩
  | enter place => exact coherent.enter place
  | proceed => exact coherent.proceed
  | refuse =>
    simp only [Conversation.step]
    split
    · next call turn =>
      have stopped : talk.client.running = false := by simpa using coherent.turn call _ turn
      exact ⟨coherent.stream, coherent.numbers, coherent.stopped, by simp, by simp [stopped]⟩
    · exact coherent
  | leave number => exact coherent.of_client _ rfl rfl rfl
  | receive message =>
    obtain ⟨seq, running, files⟩ := Client.receive_keeps talk.client message
    exact coherent.of_client _ seq running files
  | exit => exact coherent.of_client _ rfl rfl rfl
  | start =>
    simp only [Conversation.step]
    split
    · next idle =>
      obtain ⟨free, stopped⟩ : talk.isIdle = true ∧ talk.client.running = false := by
        simpa using idle
      exact (coherent.launch stopped).coherent (turn_of_isIdle free)
    · exact coherent
  | close =>
    simp only [Conversation.step]
    split
    · next idle =>
      exact ⟨coherent.stream, coherent.numbers, fun _ => rfl, by simp [turn_of_isIdle idle],
        by simp [Client.close]⟩
    · exact coherent

theorem run (coherent : talk.Coherent) (moves : List Move) :
    (moves.foldl Conversation.step talk).Coherent := by
  induction moves generalizing talk with
  | nil => exact coherent
  | cons move moves ih => exact ih (coherent.step move)

end Coherent

/-- However calls interleave, the numbers of the messages grow, each file is opened and closed in
turn, and when a query comes the server holds the text of the call that asks. -/
theorem queries_meet_their_text (moves : List Move) :
    let sent := (after moves).sent
    (sent.map (·.2.seq)).Pairwise (· < ·) ∧
    (∀ file, Alternates ((turns file sent).map (·.command))) ∧
    ∀ earlier call message later, sent = earlier ++ (call, message) :: later → message.IsQuery →
      commandOf? call.query = some message.command ∧
        message.arguments = location call.file call.query ∧
          held call.file earlier = some call.text := by
  intro sent
  have stream : Stream sent := (coherent_initial.run moves).stream
  exact ⟨stream.pairwise, fun file => (stream.alternates file).1,
    fun earlier call message later split query => stream.holds_text split query⟩

/-- A call about one file, with different texts of it. -/
def callOn (text : String) : Call := ⟨"a.ts", text, ⟨.type, 0, 1, ⟨0, 0⟩, "x", none⟩⟩

/-- The second call tries for its turn while the first starts the server and opens the file. It gets
its turn before the first has its answer. -/
def twoTexts : List Move :=
  [.call (callOn "old"), .call (callOn "new"), .enter 0, .enter 0, .proceed, .enter 0, .proceed,
    .enter 0, .leave 2, .proceed, .proceed]

theorem second_text_held :
    (after twoTexts).sent.map (·.2.command) = ["open", "quickinfo", "close", "open", "quickinfo"] ∧
      held "a.ts" ((after twoTexts).sent.take 4) = some "new" := by
  refine ⟨by rfl, ?_⟩
  have split : (after twoTexts).sent = (after twoTexts).sent.take 4 ++
      (callOn "new", ⟨5, "quickinfo", location "a.ts" (callOn "new").query⟩) :: [] := by rfl
  exact ((queries_meet_their_text twoTexts).2.2 _ _ _ _ split (.inl rfl)).2.2

end Conversation

end Inlay.TypeServer
