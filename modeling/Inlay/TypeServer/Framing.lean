import Inlay.Json.Printer
import Inlay.Json.Reader
import Inlay.Text.Encoding
import Inlay.Text.Lowercase

/-!
Messages in a stream of bytes: header lines, a blank line, and as many bytes of JSON as the header
`Content-Length` says.

Blank lines before a header and headers of other names are skipped. Of several lengths the last
counts. A header line may have only so many bytes.
-/

namespace Inlay.TypeServer

open Inlay.Text

/-- Why a stream cannot be read. -/
inductive FrameError
  | undecodable
  /-- A header line has more bytes than it may, and has ended or not. -/
  | longLine (ended : Bool)
  | badLength (cause : Whole.Error)
  | negativeLength
  | truncated (got expected : Nat)
  | notJson (cause : Json.Error)
  deriving DecidableEq, Repr

def FrameError.message : FrameError → String
  | .undecodable => "bytes that are not UTF-8"
  | .longLine true => "Separator is found, but chunk is longer than limit"
  | .longLine false => "Separator is not found, and chunk exceed the limit"
  | .badLength cause => cause.message
  | .negativeLength => "readexactly size can not be less than zero"
  | .truncated got expected =>
    toString got ++ " bytes read on a total of " ++ toString expected ++ " expected bytes"
  | .notJson cause => cause.message

/-- A line of a header. -/
inductive Line
  | blank
  | length (length : Int)
  | other
  deriving DecidableEq, Repr

/-- A header line from its decoded text. -/
def lineOf (text : List Char) : Except FrameError Line :=
  match strip text with
  | [] => .ok .blank
  | header =>
    let name := header.takeWhile (· != ':')
    if lower name = "content-length".toList then
      let value := strip ((header.dropWhile (· != ':')).drop 1)
      match Whole.read value with
      | .ok n => .ok (.length n)
      | .error cause => .error (.badLength cause)
    else .ok .other

/-- The most bytes of a header line, its end apart. -/
def lineLimit : Nat := 65536

/-- A header line from its bytes, the end of the line apart. -/
def readLine (ended : Bool) (bytes : Bytes) : Except FrameError Line :=
  if lineLimit < bytes.length then .error (.longLine ended)
  else
    match decode? bytes with
    | none => .error .undecodable
    | some text => lineOf text.toList

/-- What is found at the front of a stream. -/
inductive Found (α : Type)
  | found (value : α) (rest : Bytes)
  /-- The stream has ended. -/
  | finished
  /-- More bytes are needed. -/
  | waiting

/-- Reads header lines up to the blank line after a length. `line` holds the bytes of the current
line, the last first, and `ended` tells that no bytes will follow. -/
def readHeader (ended : Bool) (length : Option Int) (line : Bytes) :
    Bytes → Except FrameError (Found Int)
  | [] =>
    if !ended then
      if lineLimit < line.length then .error (.longLine false) else .ok .waiting
    else if line.isEmpty then .ok .finished
    else
      match readLine false line.reverse, length with
      | .error e, _ => .error e
      | .ok .blank, some n => .ok (.found n [])
      | .ok _, _ => .ok .finished
  | byte :: rest =>
    if byte = 10 then
      match readLine true line.reverse, length with
      | .error e, _ => .error e
      | .ok .blank, some n => .ok (.found n rest)
      | .ok (.length n), _ => readHeader ended (some n) [] rest
      | .ok _, length => readHeader ended length [] rest
    else readHeader ended length (byte :: line) rest

/-- Reads the JSON of a message of the given length. -/
def readPayload (ended : Bool) (length : Int) (bytes : Bytes) : Except FrameError (Found Json) :=
  if length < 0 then .error .negativeLength
  else
    let size := length.toNat
    if bytes.length < size then
      if ended then .error (.truncated bytes.length size) else .ok .waiting
    else
      match decode? (bytes.take size) with
      | none => .error .undecodable
      | some text =>
        match Json.parse text.toList with
        | .error cause => .error (.notJson cause)
        | .ok value => .ok (.found value (bytes.drop size))

/-- Reads one message. -/
def readMessage (ended : Bool) (bytes : Bytes) : Except FrameError (Found Json) :=
  match readHeader ended none [] bytes with
  | .error e => .error e
  | .ok .waiting => .ok .waiting
  | .ok .finished => .ok .finished
  | .ok (.found length rest) => readPayload ended length rest

/-- A message as it is sent. -/
def frame (value : Json) : Bytes :=
  let payload := encode value.line
  encode ("Content-Length: " ++ toString payload.length ++ "\r\n\r\n") ++ payload

/-- All messages of a stream that has ended, at most `fuel` of them, and the error that stopped
the reading, if there was one. A message `null` ends the stream. -/
def readAll : (fuel : Nat) → Bytes → List Json × Option FrameError
  | 0, _ => ([], none)
  | fuel + 1, bytes =>
    match readMessage true bytes with
    | .error e => ([], some e)
    | .ok (.found .null _) => ([], none)
    | .ok (.found value rest) =>
      let (values, error) := readAll fuel rest
      (value :: values, error)
    | .ok _ => ([], none)

/-- Every message takes at least one byte. -/
def messages (bytes : Bytes) : List Json × Option FrameError := readAll (bytes.length + 1) bytes

end Inlay.TypeServer
