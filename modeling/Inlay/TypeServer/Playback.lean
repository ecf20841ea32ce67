import Inlay.TypeServer.Client
import Inlay.TypeServer.Framing
import Inlay.TypeServer.Launch

/-!
The client at work with a server that follows a script.

The script holds what the server does on each message other than those that open and close files.
Several operations can be started together. Each then runs until it has to wait; after that the
client reads what the server has written, and whoever still waits gives up.
-/

namespace Inlay.TypeServer

open Inlay.Json (Fields)

/-- What a scripted server does. A reply is laid over a response to the message at hand. -/
inductive Reaction
  | reply (fields : Fields)
  | output (text : String)
  | exit

/-- What can be seen from outside. -/
inductive Event
  | spawn (command : List String) (directory : String)
  | sent (message : Message)
  | terminate

/-- Why an operation has no result. -/
inductive Mishap
  | failed (failure : Failure)
  | malformed (cause : Malformed)
  | unsupported (cause : Language.Error)
  /-- The script goes on after its end. -/
  | outputAfterEnd

inductive Operation
  | start
  | close
  | notify (command : String) (arguments : Json)
  | request (command : String) (arguments : Json)
  | infer (path text : String) (query : Query)

/-- An operation that has been started. -/
inductive Started
  | finished (result : Except Mishap (Option Json))
  /-- Waits for the response with a number, and reads it as the answer to the query, if any. -/
  | waiting (seq : Nat) (command : String) (query : Option Query)
  /-- Waits for the reader to stop. -/
  | closing

def Started.isClosing : Started → Bool
  | .closing => true
  | _ => false

/-- `output` is what the server has written and nobody has read, `exited` tells that no more will
follow, and `reading` that the client reads it. Events stand last first. -/
structure Playback where
  command : List String
  root : String
  script : List (List Reaction)
  client : Client
  output : Text.Bytes
  exited : Bool
  reading : Bool
  events : List Event

namespace Playback

def initial (command : List String) (root : String) (script : List (List Reaction)) : Playback :=
  ⟨command, root, script, .initial, [], false, false, []⟩

def emit (play : Playback) (event : Event) : Playback :=
  { play with events := event :: play.events }

/-- The events since the last time, in order. -/
def takeEvents (play : Playback) : Playback × List Event :=
  ({ play with events := [] }, play.events.reverse)

/-- Starts the server unless it runs. -/
def launch (play : Playback) : Playback :=
  if play.client.running then play
  else
    { play.emit (.spawn play.command play.root) with
      client := play.client.start, output := [], exited := false, reading := true }

/-- A reply as the response to the message with a number. -/
def response (seq : Nat) (fields : Fields) : Json :=
  .object (fields.foldl (fun known (name, value) => Fields.put known name value)
    [("type", .text "response"), ("request_seq", .int seq)])

/-- The server's reactions to the message with a number, and whether all could be played. -/
def react (play : Playback) (seq : Nat) : List Reaction → Playback × Bool
  | [] => (play, true)
  | .exit :: rest => react { play with exited := true } seq rest
  | .reply fields :: rest =>
    if play.exited then (play, false)
    else react { play with output := play.output ++ frame (response seq fields) } seq rest
  | .output text :: rest =>
    if play.exited then (play, false)
    else react { play with output := play.output ++ Text.encode text } seq rest

/-- Hands a message to the server. -/
def deliver (play : Playback) (message : Message) : Playback × Bool :=
  let play := play.emit (.sent message)
  if message.command = "open" ∨ message.command = "close" then (play, true)
  else
    match play.script with
    | [] => (play, true)
    | reactions :: rest => react { play with script := rest } message.seq reactions

/-- Sends a request. -/
def ask (play : Playback) (command : String) (arguments : Json) (query : Option Query) :
    Playback × Started :=
  match play.client.request command arguments with
  | (client, .error failure) => ({ play with client }, .finished (.error (.failed failure)))
  | (client, .ok message) =>
    match deliver { play with client } message with
    | (play, true) => (play, .waiting message.seq command query)
    | (play, false) => (play, .finished (.error .outputAfterEnd))

/-- The server is gone: it is told to stop, unless it has stopped by itself. -/
def shutDown (play : Playback) : Playback :=
  let stopping := play.client.running && !play.exited
  let play := if stopping then play.emit .terminate else play
  { play with client := play.client.close, reading := false }

/-- Runs an operation until it has to wait. -/
def begin (play : Playback) : Operation → Playback × Started
  | .start => (play.launch, .finished (.ok none))
  | .close =>
    if play.reading then (play, .closing) else (play.shutDown, .finished (.ok none))
  | .notify command arguments =>
    match play.client.notify command arguments with
    | (client, .error failure) => ({ play with client }, .finished (.error (.failed failure)))
    | (client, .ok message) =>
      match deliver { play with client } message with
      | (play, true) => (play, .finished (.ok none))
      | (play, false) => (play, .finished (.error .outputAfterEnd))
  | .request command arguments => play.ask command arguments none
  | .infer path text query =>
    match Language.ofPath path with
    | .error cause => (play, .finished (.error (.unsupported cause)))
    | .ok _ =>
      let play := play.launch
      let file := fileName play.root path
      let (client, messages) := play.client.sync file text
      let play := messages.foldl (fun play message => play.emit (.sent message)) { play with client }
      match commandOf? query with
      | none => (play, .finished (.ok none))
      | some command => play.ask command (location file query) (some query)

/-- The reader has come to the end of what can be read. -/
def stopReading (play : Playback) : Playback :=
  { play with client := play.client.exit, reading := false, output := [] }

/-- Reads the messages that the server has written, at most `fuel` of them. -/
def read : (fuel : Nat) → Playback → Playback
  | 0, play => play
  | fuel + 1, play =>
    match readMessage play.exited play.output with
    | .error _ => play.stopReading
    | .ok .finished => play.stopReading
    | .ok .waiting => play
    | .ok (.found .null _) => play.stopReading
    | .ok (.found message rest) =>
      match play.client.receive? message with
      | none => play.stopReading
      | some client => read fuel { play with client, output := rest }

/-- Reads all that can be read. Every message takes at least one byte. -/
def readAvailable (play : Playback) : Playback :=
  if play.reading then read (play.output.length + 1) play else play

/-- What a waiting request comes to. -/
def concludeRequest (command : String) (query : Option Query) :
    Option Outcome → Except Mishap (Option Json)
  | some (.answered response) =>
    match bodyOf? response, query with
    | none, _ => .ok none
    | some body, none => .ok (some (.object body))
    | some body, some query => (interpret query body).mapError .malformed
  | some (.failed failure) => .error (.failed failure)
  | _ => .error (.failed (.timedOut command))

/-- Ends an operation and gives its result. -/
def conclude (play : Playback) : Started → Playback × Except Mishap (Option Json)
  | .finished result => (play, result)
  | .closing => (play, .ok none)
  | .waiting seq command query =>
    ({ play with client := play.client.release seq },
     concludeRequest command query (play.client.outcome? seq))

/-- Applies a step to each item in turn. -/
def inTurn {α β : Type} (step : Playback → α → Playback × β) : Playback → List α → Playback × List β
  | play, [] => (play, [])
  | play, item :: rest =>
    let (play, result) := step play item
    let (play, results) := inTurn step play rest
    (play, result :: results)

/-- Lets those that wait go on. Closing stops the reader before it reads. -/
def wait (play : Playback) (started : List Started) : Playback :=
  if started.any Started.isClosing then play.shutDown else play.readAvailable

/-- Runs operations that are started together. -/
def together (play : Playback) (operations : List Operation) :
    Playback × List (Except Mishap (Option Json)) :=
  let (play, started) := inTurn begin play operations
  inTurn conclude (play.wait started) started

/-- Runs one operation. The reader gets its turn whether the operation waits or not. -/
def run (play : Playback) (operation : Operation) : Playback × Except Mishap (Option Json) :=
  let (play, started) := play.begin operation
  (play.wait [started]).conclude started

end Playback

end Inlay.TypeServer
