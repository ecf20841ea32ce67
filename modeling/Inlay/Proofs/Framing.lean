import Inlay.Proofs.HeaderLine

/-!
Messages that are written one after another are read back one by one.

A message is written as blank lines, headers of which one tells the length, a blank line and the
payload. The reader takes a line at a time and then as many bytes as it was told, so what stands in
a payload is never looked at as a line, and the next message is read from its first byte. A line
must be UTF-8 and not too long, and a length must not have too many digits. Within these limits
every stream reads back as its payloads, and beyond each of them one does not.
-/

namespace Inlay.TypeServer

open Inlay.Text

/-- A message as it is written. Its payload is UTF-8 of JSON, and may hold any bytes that can stand
there. -/
structure Framed where
  blanks : List HeaderLine
  before : List HeaderLine
  length : HeaderLine
  after : List HeaderLine
  gap : HeaderLine
  payload : Bytes
  digits : List Char
  text : String
  value : Json
  blanks_blank : ∀ line ∈ blanks, line.IsBlank
  others : ∀ line ∈ before ++ after, line.IsOther
  tells : length.Tells digits
  decimal : plainNumber? digits = some payload.length
  gap_blank : gap.IsBlank
  decoded : decode? payload = some text
  parsed : Json.parse text.toList = .ok value

namespace Framed

def lines (frame : Framed) : List HeaderLine :=
  frame.blanks ++ frame.before ++ frame.length :: frame.after ++ [frame.gap]

def bytes (frame : Framed) : Bytes := frame.lines.flatMap HeaderLine.bytes ++ frame.payload

/-- The lines can be read, and the length has not too many digits. -/
structure Readable (frame : Framed) : Prop where
  lines : ∀ line ∈ frame.lines, line.Readable
  fewDigits : frame.digits.length ≤ Whole.digitLimit

theorem Readable.length_readLine {frame : Framed} (readable : frame.Readable) :
    readLine true frame.length.upToFeed = .ok (.length frame.payload.length) := by
  have line := readable.lines frame.length (by simp [Framed.lines])
  rw [frame.tells.readLine_eq frame.decimal line, if_neg (Nat.not_lt.mpr readable.fewDigits)]

/-- The reader finds the length, and stops right before the payload. -/
theorem Readable.readHeader_eq {frame : Framed} (readable : frame.Readable) (ended : Bool)
    (rest : Bytes) :
    readHeader ended none [] (frame.bytes ++ rest) =
      .ok (.found frame.payload.length (frame.payload ++ rest)) := by
  have parts : frame.bytes ++ rest =
      frame.blanks.flatMap HeaderLine.bytes ++ (frame.before.flatMap HeaderLine.bytes ++
        (frame.length.bytes ++ (frame.after.flatMap HeaderLine.bytes ++
          (frame.gap.bytes ++ (frame.payload ++ rest))))) := by
    simp [Framed.bytes, Framed.lines]
  have gap := frame.gap_blank.readLine_eq (readable.lines frame.gap (by simp [Framed.lines]))
  rw [parts,
    HeaderLine.readHeader_blanks frame.blanks_blank
      fun line member => readable.lines line (by simp [Framed.lines, member]),
    HeaderLine.readHeader_others none (fun line member => frame.others line (by simp [member]))
      fun line member => readable.lines line (by simp [Framed.lines, member]),
    HeaderLine.readHeader_eq, readable.length_readLine]
  simp only
  rw [HeaderLine.readHeader_others _ (fun line member => frame.others line (by simp [member]))
      fun line member => readable.lines line (by simp [Framed.lines, member]),
    HeaderLine.readHeader_eq, gap]

/-- One message is read, and the next one is left. -/
theorem Readable.readMessage_eq {frame : Framed} (readable : frame.Readable) (ended : Bool)
    (rest : Bytes) : readMessage ended (frame.bytes ++ rest) = .ok (.found frame.value rest) := by
  have enough : ¬ (frame.payload ++ rest).length < frame.payload.length := by simp
  rw [readMessage, readable.readHeader_eq]
  simp only
  rw [readPayload, if_neg (by omega)]
  simp only [Int.toNat_natCast, if_neg enough, List.take_left, List.drop_left, frame.decoded,
    frame.parsed]

end Framed

/-- Messages that are read from a stream one after another, and what is left of it. -/
inductive Reads (ended : Bool) : Bytes → List Json → Bytes → Prop
  | done (bytes : Bytes) : Reads ended bytes [] bytes
  | next {bytes rest left : Bytes} {value : Json} {values : List Json}
      (read : readMessage ended bytes = .ok (.found value rest))
      (later : Reads ended rest values left) : Reads ended bytes (value :: values) left

def stream (frames : List Framed) (tail : List HeaderLine) : Bytes :=
  frames.flatMap Framed.bytes ++ tail.flatMap HeaderLine.bytes

/-- The messages of the stream are read one after another as the values of their payloads, and then
its end is found. -/
def RoundTrips (frames : List Framed) (tail : List HeaderLine) : Prop :=
  ∃ left, Reads true (stream frames tail) (frames.map Framed.value) left ∧
    readMessage true left = .ok .finished

theorem reads_frames {frames : List Framed} (readable : ∀ frame ∈ frames, frame.Readable)
    (ended : Bool) (rest : Bytes) :
    Reads ended (frames.flatMap Framed.bytes ++ rest) (frames.map Framed.value) rest := by
  induction frames with
  | nil => exact .done rest
  | cons frame frames ih =>
    rw [List.flatMap_cons, List.append_assoc]
    have first := (readable frame List.mem_cons_self).readMessage_eq ended
      (frames.flatMap Framed.bytes ++ rest)
    exact .next first (ih fun other member => readable other (List.mem_cons_of_mem frame member))

theorem readMessage_blanks {tail : List HeaderLine} (blank : ∀ line ∈ tail, line.IsBlank)
    (readable : ∀ line ∈ tail, line.Readable) :
    readMessage true (tail.flatMap HeaderLine.bytes) = .ok .finished := by
  have header : readHeader true none [] (tail.flatMap HeaderLine.bytes ++ []) = .ok .finished :=
    HeaderLine.readHeader_blanks blank readable []
  rw [List.append_nil] at header
  rw [readMessage, header]

theorem readAll_of_reads {bytes left : Bytes} {values : List Json}
    (reads : Reads true bytes values left) (finished : readMessage true left = .ok .finished)
    (present : ∀ value ∈ values, value ≠ .null) {fuel : Nat} (enough : values.length < fuel) :
    readAll fuel bytes = (values, none) := by
  induction reads generalizing fuel with
  | done bytes =>
    cases fuel with
    | zero => omega
    | succ fuel => rw [readAll, finished]
  | @next bytes rest left value values read _ ih =>
    cases fuel with
    | zero => omega
    | succ fuel =>
      have others : ∀ value ∈ values, value ≠ .null := fun other member =>
        present other (List.mem_cons_of_mem value member)
      have later := ih finished others (Nat.lt_of_succ_lt_succ enough)
      have here := present value List.mem_cons_self
      rw [readAll, read]
      cases value with
      | null => exact absurd rfl here
      | bool | int | float | text | list | object => simp only [later]

theorem length_le_stream (frames : List Framed) (tail : List HeaderLine) :
    frames.length ≤ (stream frames tail).length := by
  have bytes : frames.length ≤ (frames.flatMap Framed.bytes).length := by
    induction frames with
    | nil => exact Nat.zero_le _
    | cons frame frames ih =>
      have line : 0 < frame.bytes.length := by
        simp only [Framed.bytes, Framed.lines, HeaderLine.bytes, List.flatMap_append,
          List.flatMap_cons, List.length_append, List.length_cons]
        omega
      rw [List.flatMap_cons, List.length_append, List.length_cons]
      omega
  rw [stream, List.length_append]
  omega

/-- Messages that are written one after another are read back in order, and then the end of the
stream is found. Unless one of them is `null`, which ends the reading, they are all the messages of
the stream. -/
theorem framed_messages_read_back (frames : List Framed) (tail : List HeaderLine)
    (blank : ∀ line ∈ tail, line.IsBlank) (readable : ∀ frame ∈ frames, frame.Readable)
    (readableTail : ∀ line ∈ tail, line.Readable) :
    RoundTrips frames tail ∧
      ((∀ frame ∈ frames, frame.value ≠ .null) →
        messages (stream frames tail) = (frames.map Framed.value, none)) := by
  have reads := reads_frames readable true (tail.flatMap HeaderLine.bytes)
  have finished := readMessage_blanks blank readableTail
  refine ⟨⟨_, reads, finished⟩, ?_⟩
  intro present
  have enough := length_le_stream frames tail
  refine readAll_of_reads reads finished ?_ ?_
  · intro value member
    obtain ⟨frame, among, rfl⟩ := List.mem_map.mp member
    exact present frame among
  · rw [List.length_map]
    omega

/-! ## Streams at the limits -/

theorem encode_ascii {text : List Char} (small : ∀ c ∈ text, c.toNat < 128) :
    encode (String.ofList text) = text.map fun c => c.toNat.toUInt8 := by
  have single : ∀ n : Fin 128,
      encode (String.ofList [Char.ofNat n]) = [(Char.ofNat n).toNat.toUInt8] := by
    decide +kernel
  induction text with
  | nil => rfl
  | cons c rest ih =>
    have first : encode (String.ofList [c]) = [c.toNat.toUInt8] := by
      simpa using single ⟨c.toNat, small c List.mem_cons_self⟩
    rw [← List.singleton_append, String.ofList_append, encode_append, first,
      ih fun d member => small d (List.mem_cons_of_mem c member), List.map_append]
    rfl

/-- The digits of two with zeros in front. -/
def paddedTwo (zeros : Nat) : List Char := List.replicate zeros '0' ++ ['2']

theorem plainNumber?_paddedTwo (zeros : Nat) : plainNumber? (paddedTwo zeros) = some 2 := by
  have digits : (paddedTwo zeros).all (fun c => (plainDigit? c).isSome) = true := by
    simp [paddedTwo, plainDigit?]
  have values : (paddedTwo zeros).filterMap plainDigit? = List.replicate zeros 0 ++ [2] := by
    simp [paddedTwo, plainDigit?]
  have value : ∀ zeros, valueOf (List.replicate zeros 0 ++ [2]) = 2 := by
    intro zeros
    induction zeros with
    | zero => rfl
    | succ zeros ih => exact ih
  rw [plainNumber?, digits, values, value]
  simp [paddedTwo]

theorem ascii_paddedTwo {zeros : Nat} {c : Char}
    (member : c ∈ "Content-Length".toList ++ ':' :: ' ' :: paddedTwo zeros) :
    c.toNat < 128 ∧ c.toNat.toUInt8 ≠ 10 := by
  have front : "Content-Length".toList.all
      (fun c => c.toNat < 128 && c.toNat.toUInt8 != 10) = true := by decide
  simp only [paddedTwo, List.mem_append, List.mem_cons, List.mem_replicate, List.not_mem_nil,
    or_false] at member
  rcases member with early | rfl | rfl | ⟨-, rfl⟩ | rfl
  · simpa using List.all_eq_true.mp front c early
  all_goals decide

/-- The line that tells the length two, with zeros in front. -/
def twoBytes (zeros : Nat) : HeaderLine where
  content := encode (String.ofList ("Content-Length".toList ++ ':' :: ' ' :: paddedTwo zeros))
  returns := true
  unbroken := by
    rw [encode_ascii fun c member => (ascii_paddedTwo member).1]
    intro feed
    obtain ⟨c, member, same⟩ := List.mem_map.mp feed
    exact (ascii_paddedTwo member).2 same

theorem twoBytes_readable {zeros : Nat} (short : zeros + 18 ≤ lineLimit) :
    (twoBytes zeros).Readable := by
  refine ⟨⟨_, decode?_encode _⟩, ?_⟩
  have content : (twoBytes zeros).content.length = zeros + 17 := by
    change (encode (String.ofList _)).length = _
    rw [encode_ascii fun c member => (ascii_paddedTwo member).1]
    simp [paddedTwo]
  have mark : (twoBytes zeros).upToFeed = (twoBytes zeros).content ++ [13] := rfl
  rw [mark, List.length_append, content]
  exact short

theorem twoBytes_tells (zeros : Nat) : (twoBytes zeros).Tells (paddedTwo zeros) := by
  refine ⟨[], "Content-Length".toList, [' '], [], List.all_eq_true.mp (by decide), by decide, ?_⟩
  rw [List.append_nil]
  exact decode?_encode _

/-- The empty object as a message, behind some headers. -/
def emptyObject (before : List HeaderLine) (zeros : Nat) (others : ∀ line ∈ before, line.IsOther) :
    Framed where
  blanks := []
  before := before
  length := twoBytes zeros
  after := []
  gap := ⟨[], true, by simp⟩
  payload := [0x7B, 0x7D]
  digits := paddedTwo zeros
  text := "\x7b\x7d"
  value := .object []
  blanks_blank := by simp
  others := by simpa using others
  tells := twoBytes_tells zeros
  decimal := plainNumber?_paddedTwo zeros
  gap_blank := by decide +kernel
  decoded := by decide +kernel
  parsed := by decide +kernel

/-- A list as a message, with a payload that looks like a header and lines of every kind. -/
def spacedList : Framed where
  blanks := [⟨encode " ", false, by decide +kernel⟩, ⟨encode "", true, by decide +kernel⟩]
  before := [⟨encode "X: é", true, by decide +kernel⟩]
  length := ⟨encode "  cONTENT-lENGTH:025 ", false, by decide +kernel⟩
  after := [⟨encode "Content-Type: Content-Length: 1", false, by decide +kernel⟩]
  gap := ⟨encode "", false, by decide +kernel⟩
  payload := encode "[\"Content-Length: 2\"\r\n\r\n]"
  digits := "025".toList
  text := "[\"Content-Length: 2\"\r\n\r\n]"
  value := .list [.text "Content-Length: 2"]
  blanks_blank := by decide +kernel
  others := by decide +kernel
  tells := ⟨"  ".toList, "cONTENT-lENGTH".toList, [], [' '], List.all_eq_true.mp (by decide),
    by decide, by decide +kernel⟩
  decimal := by decide +kernel
  gap_blank := by decide +kernel
  decoded := decode?_encode _
  parsed := by decide +kernel

/-- Two messages with blank lines around them, headers in any order and a length in capitals. -/
theorem spaced_messages_read_back :
    let tail : List HeaderLine := [⟨encode " ", true, by decide +kernel⟩]
    let frames := [spacedList, emptyObject [] 3 (by simp)]
    stream frames tail = encode (" \n\r\nX: é\r\n  cONTENT-lENGTH:025 \n" ++
        "Content-Type: Content-Length: 1\n\n[\"Content-Length: 2\"\r\n\r\n]" ++
        "Content-Length: 0002\r\n\r\n\x7b\x7d \r\n") ∧
      RoundTrips frames tail ∧
      messages (stream frames tail) = ([.list [.text "Content-Length: 2"], .object []], none) := by
  intro tail frames
  have blank : ∀ line ∈ tail, line.IsBlank := by decide +kernel
  have readableTail : ∀ line ∈ tail, line.Readable := by decide +kernel
  have readable : ∀ frame ∈ frames, frame.Readable := by
    simp only [frames, List.forall_mem_cons, List.not_mem_nil, false_implies, implies_true,
      and_true]
    exact ⟨⟨by decide +kernel, by decide⟩, ⟨by decide +kernel, by decide⟩⟩
  have present : ∀ frame ∈ frames, frame.value ≠ .null := by
    simp [frames, spacedList, emptyObject]
  have back := framed_messages_read_back frames tail blank readable readableTail
  exact ⟨by decide +kernel, back.1, back.2 present⟩

/-- A header of so many letters and one more. -/
def letters (n : Nat) : HeaderLine where
  content := List.replicate (n + 1) 97
  returns := false
  unbroken := by simp

theorem letters_isOther (n : Nat) : (letters n).IsOther := by
  have text : (letters n).content = encode (String.ofList (List.replicate (n + 1) 'a')) := by
    rw [encode_ascii (by simp), List.map_replicate]
    rfl
  have whole : strip (List.replicate (n + 1) 'a') = List.replicate (n + 1) 'a' :=
    strip_eq_self (List.replicate_succ' ..) (by decide) (by decide)
  have name : (List.replicate (n + 1) 'a').takeWhile (· != ':') = List.replicate (n + 1) 'a' := by
    simp
  intro found decoded
  rw [text, decode?_encode] at decoded
  obtain rfl := Option.some.inj decoded
  rw [String.toList_ofList, whole, name, lower_ascii (by simp), List.map_replicate]
  refine ⟨⟨'a', by simp, by decide⟩, ?_⟩
  intro same
  exact absurd (List.cons.inj same).1 (by decide)

theorem not_roundTrips {frame : Framed} {line : HeaderLine} {later : List HeaderLine}
    {e : FrameError} (first : frame.lines = line :: later)
    (refused : readLine true line.upToFeed = .error e) : ¬ RoundTrips [frame] [] := by
  rintro ⟨left, reads, -⟩
  have bytes : stream [frame] [] =
      line.bytes ++ (later.flatMap HeaderLine.bytes ++ frame.payload) := by
    simp [stream, Framed.bytes, first]
  have stopped : readMessage true (stream [frame] []) = .error e := by
    rw [readMessage, bytes, HeaderLine.readHeader_eq, refused]
  cases reads with
  | next read later =>
    rw [stopped] at read
    cases read

/-- A line that is too long, one that is no UTF-8, and a length with too many digits: each of them
alone keeps a message from being read. -/
theorem unreadable_lines_stop_reading :
    ¬ RoundTrips [emptyObject [letters lineLimit] 0 (by simp [letters_isOther])] [] ∧
      ¬ RoundTrips [emptyObject [⟨[255], false, by decide⟩] 0 (by decide +kernel)] [] ∧
      ¬ RoundTrips [emptyObject [] Whole.digitLimit (by decide)] [] := by
  refine ⟨not_roundTrips rfl (e := .longLine true) ?_, not_roundTrips rfl (e := .undecodable) ?_,
    not_roundTrips rfl (e := .badLength (.tooManyDigits (paddedTwo Whole.digitLimit).length)) ?_⟩
  · have long : lineLimit < (letters lineLimit).upToFeed.length := by
      simp [HeaderLine.upToFeed, letters]
    rw [readLine, if_pos long]
  · decide +kernel
  · have readable : (twoBytes Whole.digitLimit).Readable := twoBytes_readable (by decide)
    have many : Whole.digitLimit < (paddedTwo Whole.digitLimit).length := by simp [paddedTwo]
    have refused := (twoBytes_tells _).readLine_eq (plainNumber?_paddedTwo _) readable
    rw [if_pos many] at refused
    exact refused

end Inlay.TypeServer
