import Mathlib.Data.List.Basic
import Inlay.TypeServer.Client

/-!
What a server is told, message by message, and what it holds of each file after that.

A stream of messages that the server can follow grows by one message at a time: each one goes by
what the server holds after those before it. So numbers grow, each file is opened and closed in
turn, and a query comes when the server holds the text that it is about.
-/

namespace Inlay.TypeServer

/-- A query about the text of a file. -/
structure Call where
  file : String
  text : String
  query : Query

namespace Message

/-- A text among the arguments of a message. -/
def textOf? (message : Message) (name : String) : Option String :=
  match message.arguments with
  | .object fields =>
    match Json.Fields.get? fields name with
    | some (.text value) => some value
    | _ => none
  | _ => none

/-- A message opens or closes a file. -/
def touches (file : String) (message : Message) : Bool :=
  (message.command == "open" || message.command == "close") && message.textOf? "file" == some file

/-- The text that the server holds of a file after a message that opens or closes it. -/
def given? (message : Message) : Option String :=
  if message.command = "open" then message.textOf? "fileContent" else none

/-- A message asks something. -/
def IsQuery (message : Message) : Prop :=
  message.command = "quickinfo" ∨ message.command = "signatureHelp"

variable (file other text : String) (seq : Nat)

@[simp] theorem touches_close :
    touches other ⟨seq, "close", .object [("file", .text file)]⟩ = (file == other) := by
  simp [touches, textOf?, Json.Fields.get?]

@[simp] theorem touches_open :
    touches other ⟨seq, "open", Client.openArguments file text⟩ = (file == other) := by
  simp [touches, textOf?, Json.Fields.get?, Client.openArguments]

@[simp] theorem given?_open :
    given? ⟨seq, "open", Client.openArguments file text⟩ = some text := by
  simp [given?, textOf?, Json.Fields.get?, Client.openArguments]

theorem touches_query {query : Query} {command : String}
    (asks : commandOf? query = some command) (arguments : Json) :
    touches other ⟨seq, command, arguments⟩ = false := by
  have named : command = "signatureHelp" ∨ command = "quickinfo" := by
    unfold commandOf? at asks
    split at asks
    · exact .inl (Option.some.inj asks).symm
    · split at asks
      · cases asks
      · exact .inr (Option.some.inj asks).symm
    · exact .inr (Option.some.inj asks).symm
  rcases named with rfl | rfl <;> rfl

end Message

/-- The messages that open and close a file. -/
def turns (file : String) (sent : List (Call × Message)) : List Message :=
  (sent.map (·.2)).filter (·.touches file)

/-- The text that the server holds of a file: what the last message that opens or closes it
brings, if it opens it. -/
def held (file : String) (sent : List (Call × Message)) : Option String :=
  (turns file sent).getLast?.bind Message.given?

section Concat

variable {file : String} {sent : List (Call × Message)} {call : Call} {message : Message}

theorem turns_of_touches (touches : message.touches file = true) :
    turns file (sent ++ [(call, message)]) = turns file sent ++ [message] := by
  simp [turns, touches]

theorem turns_of_not_touches (passes : message.touches file = false) :
    turns file (sent ++ [(call, message)]) = turns file sent := by
  simp [turns, passes]

theorem held_of_touches (touches : message.touches file = true) :
    held file (sent ++ [(call, message)]) = message.given? := by
  simp [held, turns_of_touches touches]

theorem held_of_not_touches (passes : message.touches file = false) :
    held file (sent ++ [(call, message)]) = held file sent := by
  rw [held, turns_of_not_touches passes, held]

theorem held_close (file : String) (seq : Nat) :
    held file (sent ++ [(call, ⟨seq, "close", .object [("file", .text call.file)]⟩)]) =
      if file = call.file then none else held file sent := by
  by_cases same : file = call.file
  · rw [held_of_touches (by simp [same])]
    simp [same, Message.given?]
  · rw [held_of_not_touches (by simpa using Ne.symm same), if_neg same]

theorem held_open (file : String) (seq : Nat) :
    held file (sent ++ [(call, ⟨seq, "open", Client.openArguments call.file call.text⟩)]) =
      if file = call.file then some call.text else held file sent := by
  by_cases same : file = call.file
  · rw [held_of_touches (by simp [same])]
    simp [same]
  · rw [held_of_not_touches (by simpa using Ne.symm same), if_neg same]

/-- What stands somewhere in a list is its last item or stands before it. -/
theorem concat_eq_split {α : Type} {earlier later sent : List α} {item last : α}
    (split : sent ++ [last] = earlier ++ item :: later) :
    (earlier = sent ∧ item = last) ∨ ∃ rest, sent = earlier ++ item :: rest := by
  rcases List.eq_nil_or_concat later with rfl | ⟨rest, other, rfl⟩
  · obtain ⟨same, isLast⟩ := List.append_inj' split rfl
    exact .inl ⟨same.symm, (List.singleton_inj.mp isLast).symm⟩
  · rw [List.concat_eq_append, ← List.cons_append, ← List.append_assoc] at split
    exact .inr ⟨rest, (List.append_inj' split rfl).1⟩

end Concat

/-- Messages that the server can follow: numbers grow, a file is opened when the server does not
hold it and closed when it does, and a query comes when the server holds the text of its call. -/
inductive Stream : List (Call × Message) → Prop
  | nil : Stream []
  | closes {sent : List (Call × Message)} {call : Call} {seq : Nat} (earlier : Stream sent)
      (next : ∀ entry ∈ sent, entry.2.seq < seq) (holds : held call.file sent ≠ none) :
      Stream (sent ++ [(call, ⟨seq, "close", .object [("file", .text call.file)]⟩)])
  | opens {sent : List (Call × Message)} {call : Call} {seq : Nat} (earlier : Stream sent)
      (next : ∀ entry ∈ sent, entry.2.seq < seq) (lacks : held call.file sent = none) :
      Stream (sent ++ [(call, ⟨seq, "open", Client.openArguments call.file call.text⟩)])
  | asks {sent : List (Call × Message)} {call : Call} {seq : Nat} {command : String}
      (earlier : Stream sent) (next : ∀ entry ∈ sent, entry.2.seq < seq)
      (query : commandOf? call.query = some command)
      (holds : held call.file sent = some call.text) :
      Stream (sent ++ [(call, ⟨seq, command, location call.file call.query⟩)])

/-- Opening comes first, and then closing and opening in turn. -/
def Alternates (commands : List String) : Prop :=
  ∀ place command, commands[place]? = some command →
    command = if place % 2 = 0 then "open" else "close"

theorem Alternates.concat {commands : List String} {command : String}
    (alternates : Alternates commands)
    (next : command = if commands.length % 2 = 0 then "open" else "close") :
    Alternates (commands ++ [command]) := by
  intro place found present
  by_cases old : place < commands.length
  · rw [List.getElem?_append_left old] at present
    exact alternates place found present
  · rw [List.getElem?_append_right (by omega)] at present
    obtain ⟨inside, rfl⟩ := List.getElem?_eq_some_iff.mp present
    have last : place = commands.length := by simp at inside; omega
    simpa [last] using next

namespace Stream

variable {sent : List (Call × Message)}

theorem pairwise (stream : Stream sent) : (sent.map (·.2.seq)).Pairwise (· < ·) := by
  have grow : ∀ {sent : List (Call × Message)} {entry : Call × Message},
      (sent.map (·.2.seq)).Pairwise (· < ·) → (∀ old ∈ sent, old.2.seq < entry.2.seq) →
        ((sent ++ [entry]).map (·.2.seq)).Pairwise (· < ·) := by
    intro sent entry sorted next
    rw [List.map_append, List.pairwise_append]
    refine ⟨sorted, List.pairwise_singleton _ _, ?_⟩
    intro number member last isLast
    obtain ⟨old, known, rfl⟩ := List.mem_map.mp member
    rw [List.mem_singleton.mp isLast]
    exact next old known
  induction stream with
  | nil => exact .nil
  | closes _ next _ ih | opens _ next _ ih | asks _ next _ _ ih => exact grow ih next

/-- The server holds a file's text after an odd number of messages that open and close it. -/
theorem alternates (stream : Stream sent) (file : String) :
    Alternates ((turns file sent).map (·.command)) ∧
      (held file sent = none ↔ (turns file sent).length % 2 = 0) := by
  induction stream with
  | nil => exact ⟨by simp [Alternates, turns], by simp [held, turns]⟩
  | @closes sent call seq _ _ holds ih =>
    by_cases same : call.file = file
    · subst same
      -- the file is open, so its messages so far are odd in number
      have odd : (turns call.file sent).length % 2 ≠ 0 := fun even => holds (ih.2.mpr even)
      rw [turns_of_touches (by simp), held_of_touches (by simp), List.map_append]
      refine ⟨ih.1.concat (by simp [odd]), ?_⟩
      simp [Message.given?]
      omega
    · rw [turns_of_not_touches (by simpa using same), held_of_not_touches (by simpa using same)]
      exact ih
  | @opens sent call seq _ _ lacks ih =>
    by_cases same : call.file = file
    · subst same
      have even := ih.2.mp lacks
      rw [turns_of_touches (by simp), held_of_touches (by simp), List.map_append]
      refine ⟨ih.1.concat (by simp [even]), ?_⟩
      simp
      omega
    · rw [turns_of_not_touches (by simpa using same), held_of_not_touches (by simpa using same)]
      exact ih
  | asks _ _ query _ ih =>
    rw [turns_of_not_touches (Message.touches_query _ _ query _),
      held_of_not_touches (Message.touches_query _ _ query _)]
    exact ih

theorem holds_text (stream : Stream sent) {earlier later : List (Call × Message)} {call : Call}
    {message : Message} (split : sent = earlier ++ (call, message) :: later)
    (query : message.IsQuery) :
    commandOf? call.query = some message.command ∧
      message.arguments = location call.file call.query ∧
        held call.file earlier = some call.text := by
  induction stream generalizing later with
  | nil => simp at split
  | closes _ _ _ ih | opens _ _ _ ih =>
    rcases concat_eq_split split with ⟨rfl, same⟩ | ⟨rest, split⟩
    · obtain ⟨rfl, rfl⟩ := Prod.mk.inj same
      simp [Message.IsQuery] at query
    · exact ih split
  | asks _ _ asks holds ih =>
    rcases concat_eq_split split with ⟨rfl, same⟩ | ⟨rest, split⟩
    · obtain ⟨rfl, rfl⟩ := Prod.mk.inj same
      exact ⟨asks, rfl, holds⟩
    · exact ih split

end Stream

end Inlay.TypeServer
