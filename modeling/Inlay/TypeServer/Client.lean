import Inlay.Build.Query
import Inlay.Number.Whole
import Inlay.TypeServer.Display
import Inlay.TypeServer.Help

/-!
The client of a type server.

Every message gets the next number. A request waits for the response that carries its number; the
first one settles it and later ones change nothing. A file is opened with its text before anything
is asked about it, and opened anew when the text has changed.
-/

namespace Inlay.TypeServer

open Inlay.Json (Fields)

/-- Why a request was not answered. -/
inductive Failure
  | notRunning
  | timedOut (command : String)
  | exited
  | closed
  deriving DecidableEq, Repr

def Failure.message : Failure → String
  | .notRunning => "tsserver is not running"
  | .timedOut command => "tsserver timed out on " ++ command
  | .exited => "tsserver exited"
  | .closed => "tsserver closed"

structure Message where
  seq : Nat
  command : String
  arguments : Json

def Message.toJson (message : Message) : Json :=
  .object [("seq", .int message.seq), ("type", .text "request"),
    ("command", .text message.command), ("arguments", message.arguments)]

/-- What has become of a request. -/
inductive Outcome
  | waiting
  | answered (response : Fields)
  | failed (failure : Failure)

def Outcome.isWaiting : Outcome → Bool
  | .waiting => true
  | _ => false

/-- The first response or failure settles a request. -/
def Outcome.settle (outcome result : Outcome) : Outcome :=
  if outcome.isWaiting then result else outcome

/-- The requests with a number each, and what has become of them. -/
abbrev Requests := List (Nat × Outcome)

/-- `seq` is the last number given out and `openFiles` the text that each open file was opened
with. Responses go to the `pending` requests; those in `settled` have been taken off and wait for
someone to take their outcome. -/
structure Client where
  seq : Nat
  running : Bool
  openFiles : List (String × String)
  pending : Requests
  settled : Requests

namespace Client

def initial : Client := ⟨0, false, [], [], []⟩

def start (client : Client) : Client := { client with running := true }

/-- Gives a message the next number. -/
def number (client : Client) (command : String) (arguments : Json) : Client × Message :=
  ({ client with seq := client.seq + 1 }, ⟨client.seq + 1, command, arguments⟩)

/-- Hands over a message for sending, which takes a running server. -/
def send (client : Client) (message : Message) : Except Failure Message :=
  if client.running then .ok message else .error .notRunning

/-- Sends a message that nobody answers. -/
def notify (client : Client) (command : String) (arguments : Json) :
    Client × Except Failure Message :=
  let (client, message) := client.number command arguments
  (client, client.send message)

/-- Sends a message whose response is waited for. It is pending even if it cannot be sent. -/
def request (client : Client) (command : String) (arguments : Json) :
    Client × Except Failure Message :=
  let (client, message) := client.number command arguments
  let client := { client with pending := client.pending ++ [(message.seq, .waiting)] }
  (client, client.send message)

def outcome? (client : Client) (seq : Nat) : Option Outcome :=
  (client.pending.lookup seq).or (client.settled.lookup seq)

/-- Settles the pending request with a number. -/
def settle (client : Client) (seq : Int) (result : Outcome) : Client :=
  { client with
    pending := client.pending.map fun (number, outcome) =>
      (number, if number = seq then outcome.settle result else outcome) }

/-- Takes all requests off, and fails those that still wait. -/
def failPending (client : Client) (failure : Failure) : Client :=
  { client with
    pending := []
    settled := client.settled ++
      client.pending.map fun (number, outcome) => (number, outcome.settle (.failed failure)) }

/-- Forgets a request whose outcome has been taken. -/
def release (client : Client) (seq : Nat) : Client :=
  { client with
    pending := client.pending.filter (·.1 != seq)
    settled := client.settled.filter (·.1 != seq) }

/-- The number of the request that a response belongs to. -/
def requestNumber? : Json → Option Int
  | .int n => some n
  | .bool value => some (if value then 1 else 0)
  | .float value => value.truncate?
  | .text value => (Whole.read value.toList).toOption
  | _ => none

def isResponse (message : Fields) : Bool :=
  match message.get? "type" with
  | some (.text kind) => kind == "response"
  | _ => false

/-- Takes a message of the server. Other messages than responses are passed over, and one that is
no object or whose number is none cannot be read. -/
def receive? (client : Client) : Json → Option Client
  | .object message =>
    if isResponse message then
      (requestNumber? ((Fields.get? message "request_seq").getD (.int (-1)))).map fun seq =>
        client.settle seq (.answered message)
    else some client
  | _ => none

/-- The server's output has ended. -/
def exit (client : Client) : Client := client.failPending .exited

def close (client : Client) : Client :=
  { client.failPending .closed with running := false, openFiles := [] }

/-- A file's kind of script, by its suffix. -/
def scriptKinds : List (String × String) :=
  [(".ts", "TS"), (".tsx", "TSX"), (".js", "JS"), (".jsx", "JSX"), (".mjs", "JS"), (".cjs", "JS")]

def openArguments (file text : String) : Json :=
  .object ([("file", .text file), ("fileContent", .text text)] ++
    ((scriptKinds.lookup (Language.suffixOf file)).map fun kind =>
      ("scriptKindName", Json.text kind)).toList)

def isOpen (client : Client) (file : String) : Bool := (client.openFiles.lookup file).isSome

/-- Tells the server to forget a file. -/
def closeFile (client : Client) (file : String) : Client × Message :=
  client.number "close" (.object [("file", .text file)])

/-- Gives the server a file's text. -/
def openFile (client : Client) (file text : String) : Client × Message :=
  client.number "open" (openArguments file text)

/-- Notes the text that the server has been given of a file. -/
def record (client : Client) (file text : String) : Client :=
  { client with openFiles := (file, text) :: client.openFiles.filter (·.1 != file) }

/-- Brings the server's text of a file up to date. -/
def sync (client : Client) (file text : String) : Client × List Message :=
  if client.openFiles.lookup file = some text then (client, [])
  else
    let (client, closing) :=
      if client.isOpen file then
        let (client, message) := client.closeFile file
        (client, [message])
      else (client, [])
    let (client, opening) := client.openFile file text
    (client.record file text, closing ++ [opening])

end Client

/-- The name under which the server knows a file of a project. -/
def fileName (root path : String) : String :=
  String.ofList (Path.resolve (Path.join root.toList path.toList))

/-- The command that asks a query. What an unnamed function returns is not asked. -/
def commandOf? (query : Query) : Option String :=
  match query.kind with
  | .parameterName => some "signatureHelp"
  | .returnType => if query.name = "" then none else some "quickinfo"
  | .type => some "quickinfo"

/-- Where a query asks, counted from one. -/
def location (file : String) (query : Query) : Json :=
  .object [("file", .text file), ("line", .int (query.anchor.line + 1)),
    ("offset", .int (query.anchor.character + 1))]

/-- The body of a response that reports success. -/
def bodyOf? (response : Fields) : Option Fields :=
  match (response.get? "success").bind Json.something? with
  | none => none
  | some _ => (response.get? "body").bind Json.fields?

/-- What a response's body says about a query. -/
def interpret (query : Query) (body : Fields) : Except Malformed (Option Json) :=
  let display := ((body.get? "displayString").getD (.text "")).shown.toList
  let ofText := fun (found : Option (List Char)) => found.map fun text =>
    Json.text (String.ofList text)
  match query.kind with
  | .parameterName => parameterName (.object body) (query.argument.getD 0)
  | .returnType => .ok (ofText (returnTypeOf? display query.name.toList))
  | .type => .ok (ofText (typeOf? display query.name.toList))

end Inlay.TypeServer
