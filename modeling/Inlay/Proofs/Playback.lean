import Inlay.TypeServer.Playback
import Inlay.Proofs.Conversation

/-!
A playback goes through happenings that the client may meet in any order, and each of its calls
through the moves of a conversation in which nobody else takes part. What holds of every client and
of every conversation thus holds of every playback.
-/

namespace Inlay.TypeServer

/-! ## A call in company of nobody -/

namespace Conversation

variable (talk : Conversation) (call : Call)

def atRest (client : Client) : Conversation := ⟨client, [], none, [], []⟩

theorem ask_turn (turn : Option (Call × Stage)) :
    ask { talk with turn } call = talk.ask call := by
  unfold ask
  split
  · rfl
  · split <;> simp_all

theorem attend_turn (turn : Option (Call × Stage)) :
    attend { talk with turn } call = talk.attend call := by
  unfold attend
  split
  · exact ask_turn talk call turn
  · split <;> rfl

theorem proceed_opening :
    (talk.write call (talk.client.openFile call.file call.text) .opening).proceed =
      ask { talk with
        client := (talk.client.openFile call.file call.text).1.record call.file call.text
        sent := talk.sent ++ [(call, (talk.client.openFile call.file call.text).2)] } call :=
  ask_turn { talk with
    client := (talk.client.openFile call.file call.text).1.record call.file call.text
    sent := talk.sent ++ [(call, (talk.client.openFile call.file call.text).2)] } call
    (some (call, .opening))

/-- A call that goes on whenever it waits brings the text up to date and asks. -/
theorem exists_attend_eq :
    ∃ waits, (List.replicate waits Move.proceed).foldl step (talk.attend call) =
      ask { talk with
        client := (talk.client.sync call.file call.text).1
        sent := talk.sent ++ (talk.client.sync call.file call.text).2.map (call, ·) } call := by
  by_cases current : talk.client.openFiles.lookup call.file = some call.text
  · refine ⟨0, ?_⟩
    simp [attend, current, Client.sync_of_current current]
  · cases opened : talk.client.isOpen call.file with
    | true =>
      have closes : talk.attend call =
          talk.write call (talk.client.closeFile call.file) .closing := by
        simp [attend, current, opened]
      refine ⟨2, ?_⟩
      rw [closes, Client.sync_of_open current opened, ← ask_turn _ call (some (call, .closing))]
      refine (proceed_opening (talk.write call (talk.client.closeFile call.file) .closing)
        call).trans ?_
      simp [write]
    | false =>
      have opens : talk.attend call =
          talk.write call (talk.client.openFile call.file call.text) .opening := by
        simp [attend, current, opened]
      refine ⟨1, ?_⟩
      rw [opens, Client.sync_of_unknown opened]
      exact proceed_opening talk call

/-- The client with its server running. -/
def started (client : Client) : Client := if client.running then client else client.start

/-- What a call comes to if nobody gets in its way. -/
def alone (client : Client) (call : Call) : Conversation :=
  let (client, messages) := (started client).sync call.file call.text
  ask { atRest client with sent := messages.map (call, ·) } call

theorem exists_moves_alone (client : Client) (call : Call) :
    ∃ moves : List Move, moves.foldl step (atRest client) = alone client call := by
  obtain ⟨waits, reached⟩ := exists_attend_eq (atRest (started client)) call
  cases running : client.running with
  | true =>
    refine ⟨[.call call, .enter 0] ++ List.replicate waits .proceed, ?_⟩
    have entered : [Move.call call, .enter 0].foldl step (atRest client) =
        (atRest (started client)).attend call := by
      simp [step, enter, atRest, started, running]
    rw [List.foldl_append, entered, reached]
    rfl
  | false =>
    refine ⟨[.call call, .enter 0, .proceed] ++ List.replicate waits .proceed, ?_⟩
    have entered : [Move.call call, .enter 0, .proceed].foldl step (atRest client) =
        (atRest (started client)).attend call := by
      rw [← attend_turn _ call (some (call, .launching))]
      simp [step, enter, proceed, launch, atRest, started, running]
    rw [List.foldl_append, entered, reached]
    rfl

end Conversation

end Inlay.TypeServer

namespace Inlay.TypeServer.Playback

variable {play next : Playback}

/-- Happenings lead to the client of a playback. -/
def Traced (play : Playback) : Prop := ∃ past, play.client = Client.after past

theorem traced_initial (command : List String) (root : String) (script : List (List Reaction)) :
    (initial command root script).Traced := ⟨[], rfl⟩

namespace Traced

theorem of_step (traced : play.Traced) (happening : Happening)
    (stepped : next.client = play.client.step happening) : next.Traced := by
  obtain ⟨past, reached⟩ := traced
  refine ⟨past ++ [happening], ?_⟩
  rw [Client.after_append, stepped, reached]
  rfl

end Traced

theorem react_keeps (play : Playback) (seq : Nat) (reactions : List Reaction) :
    (play.react seq reactions).1.client = play.client ∧
      (play.react seq reactions).1.events = play.events := by
  induction reactions generalizing play with
  | nil => exact ⟨rfl, rfl⟩
  | cons reaction rest ih =>
    cases reaction with
    | exit => exact ih _
    | reply fields | output text =>
      unfold react
      split
      · exact ⟨rfl, rfl⟩
      · exact ih _

theorem deliver_keeps (play : Playback) (message : Message) :
    (play.deliver message).1.client = play.client ∧
      (play.deliver message).1.events = .sent message :: play.events := by
  simp only [deliver]
  split
  · exact ⟨rfl, rfl⟩
  · split
    · exact ⟨rfl, rfl⟩
    · exact react_keeps _ _ _

theorem emitAll_eq (play : Playback) (messages : List Message) :
    messages.foldl (fun play message => play.emit (.sent message)) play =
      { play with events := (messages.map Event.sent).reverse ++ play.events } := by
  induction messages generalizing play with
  | nil => rfl
  | cons message rest ih =>
    rw [List.foldl_cons, ih]
    simp [emit]

theorem ask_keeps (play : Playback) (command : String) (arguments : Json) (query : Option Query) :
    (play.ask command arguments query).1.client = (play.client.request command arguments).1 ∧
      (play.ask command arguments query).1.events =
        ((play.client.request command arguments).2.toOption.map Event.sent).toList ++
          play.events := by
  unfold ask
  split
  · next client failure made => simp [made, Except.toOption]
  · next client message made =>
    obtain ⟨kept, sent⟩ := deliver_keeps { play with client } message
    split <;> simp_all [Except.toOption]

namespace Traced

theorem launch (traced : play.Traced) : play.launch.Traced := by
  unfold Playback.launch
  split
  · exact traced
  · exact traced.of_step .start rfl

theorem ask (traced : play.Traced) (command : String) (arguments : Json) (query : Option Query) :
    (play.ask command arguments query).1.Traced :=
  traced.of_step (.request command arguments) (ask_keeps play command arguments query).1

theorem shutDown (traced : play.Traced) : play.shutDown.Traced := by
  refine traced.of_step .close ?_
  unfold Playback.shutDown
  dsimp only
  split <;> rfl

theorem begin (traced : play.Traced) (operation : Operation) :
    (play.begin operation).1.Traced := by
  cases operation with
  | start => exact traced.launch
  | close =>
    unfold Playback.begin
    dsimp only
    split
    · exact traced
    · exact traced.shutDown
  | notify command arguments =>
    refine traced.of_step (.notify command arguments) ?_
    unfold Playback.begin
    dsimp only
    split
    · next client failure made => simp [Client.step, made]
    · next client message made =>
      have kept := (deliver_keeps { play with client } message).1
      split <;> simp_all [Client.step]
  | request command arguments => exact traced.ask command arguments none
  | infer path text query =>
    unfold Playback.begin
    dsimp only
    split
    · exact traced
    · rw [emitAll_eq]
      split
      · exact traced.launch.of_step (.sync (fileName play.launch.root path) text) rfl
      · exact Traced.ask (traced.launch.of_step (.sync (fileName play.launch.root path) text) rfl)
          _ _ _

theorem stopReading (traced : play.Traced) : play.stopReading.Traced := traced.of_step .exit rfl

theorem read (traced : play.Traced) (fuel : Nat) : (play.read fuel).Traced := by
  induction fuel generalizing play with
  | zero => exact traced
  | succ fuel ih =>
    unfold Playback.read
    split
    · exact traced.stopReading
    · exact traced.stopReading
    · exact traced
    · exact traced.stopReading
    · next message rest _ _ =>
      split
      · exact traced.stopReading
      · next client received =>
        refine ih (traced.of_step (.receive message) ?_)
        simp [Client.step, received]

theorem wait (traced : play.Traced) (started : List Started) : (play.wait started).Traced := by
  unfold Playback.wait Playback.readAvailable
  split
  · exact traced.shutDown
  · split
    · exact traced.read _
    · exact traced

theorem conclude (traced : play.Traced) (started : Started) : (play.conclude started).1.Traced := by
  cases started with
  | finished result | closing => exact traced
  | waiting seq command query => exact traced.of_step (.leave seq) rfl

theorem inTurn {α β : Type} {step : Playback → α → Playback × β}
    (keeps : ∀ {play : Playback}, play.Traced → ∀ item, (step play item).1.Traced)
    (traced : play.Traced) (items : List α) : (Playback.inTurn step play items).1.Traced := by
  induction items generalizing play with
  | nil => exact traced
  | cons item rest ih => exact ih (keeps traced item)

theorem together (traced : play.Traced) (operations : List Operation) :
    (play.together operations).1.Traced :=
  inTurn conclude ((inTurn begin traced operations).wait _) _

theorem run (traced : play.Traced) (operation : Operation) : (play.run operation).1.Traced :=
  ((traced.begin operation).wait _).conclude _

end Traced

theorem launch_keeps (play : Playback) :
    play.launch.client = Conversation.started play.client ∧ play.launch.root = play.root := by
  unfold launch Conversation.started
  split <;> exact ⟨rfl, rfl⟩

/-- A query about a file is a call in company of nobody: it leaves the same client behind and sends
the same messages. -/
theorem exists_moves_begin_infer {path text : String} {query : Query} {language : Language}
    (supported : Language.ofPath path = .ok language) :
    ∃ moves : List Move,
      let talk := moves.foldl Conversation.step (.atRest play.client)
      let next := (play.begin (.infer path text query)).1
      next.client = talk.client ∧
        next.events = (talk.sent.map fun entry => Event.sent entry.2).reverse ++
          play.launch.events := by
  obtain ⟨moves, reached⟩ :=
    Conversation.exists_moves_alone play.client ⟨fileName play.root path, text, query⟩
  obtain ⟨client, root⟩ := launch_keeps play
  refine ⟨moves, ?_⟩
  unfold begin
  simp only [reached, supported, emitAll_eq, Conversation.alone, ← client, root]
  cases asked : commandOf? query with
  | none => simp [Conversation.ask, asked, Conversation.atRest]
  | some command =>
    dsimp only
    rw [(ask_keeps _ command _ _).1, (ask_keeps _ command _ _).2]
    simp only [Conversation.ask, asked, Conversation.atRest]
    rcases (play.launch.client.sync (fileName play.root path) text).1.request command
      (location (fileName play.root path) query) with ⟨client, failure | message⟩ <;>
      simp [Except.toOption]

end Inlay.TypeServer.Playback
