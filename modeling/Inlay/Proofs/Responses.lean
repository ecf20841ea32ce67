import Inlay.TypeServer.Playback
import Inlay.Proofs.Requests

/-!
Responses reach the requests that they answer.

What becomes of a request is what the first happening says that decides it, and a message decides
no request but the one whose number it carries.
-/

namespace Inlay.TypeServer

open Inlay.Json (Fields)

/-- A message is the response to the request with a number. -/
def Answers (message : Fields) (number : Nat) : Prop :=
  message.get? "type" = some (.text "response") ∧ message.get? "request_seq" = some (.int number)

/-- A message is an object, and the number that it carries, if any, is a whole one. -/
def Numbered : Json → Prop
  | .object message =>
    ∀ value, Fields.get? message "request_seq" = some value → ∃ number, value = .int number
  | _ => False

namespace Happening

def Readable : Happening → Prop
  | .receive message => Numbered message
  | _ => True

/-- A response with the number of a request decides it, and so does the end of all reading. -/
def Decides (number : Nat) : Happening → Prop
  | .receive message => ∃ response, message = .object response ∧ Answers response number
  | .exit | .close => True
  | _ => False

/-- What a happening makes of a request that waits. -/
def verdict (number : Nat) : Happening → Outcome
  | .receive (.object message) =>
    if Client.isResponse message ∧
        Client.requestNumber? ((Fields.get? message "request_seq").getD (.int (-1))) =
          some ↑number then
      .answered message
    else .waiting
  | .exit => .failed .exited
  | .close => .failed .closed
  | _ => .waiting

end Happening

namespace Client

theorem isResponse_iff {message : Fields} :
    isResponse message = true ↔ message.get? "type" = some (.text "response") := by
  unfold isResponse
  split
  · next kind found => simp [found]
  · next other =>
    simp only [Bool.false_eq_true, false_iff]
    exact other "response"

theorem requestNumber?_of_numbered {message : Fields} (numbered : Numbered (.object message)) :
    ∃ seq, requestNumber? ((message.get? "request_seq").getD (.int (-1))) = some seq ∧
      ∀ number : Nat, seq = number ↔ message.get? "request_seq" = some (.int number) := by
  cases found : message.get? "request_seq" with
  | none => exact ⟨-1, rfl, fun number => by simp⟩
  | some value =>
    obtain ⟨seq, rfl⟩ := numbered value found
    exact ⟨seq, rfl, fun number => by simp⟩

end Client

namespace Happening

section Verdict

variable {number : Nat} {message response : Fields} {failure : Failure} {happening : Happening}

theorem verdict_of_answers (numbered : Numbered (.object message))
    (answers : Answers message number) :
    verdict number (.receive (.object message)) = .answered message := by
  obtain ⟨seq, given, isNumber⟩ := Client.requestNumber?_of_numbered numbered
  refine if_pos ⟨Client.isResponse_iff.mpr answers.1, ?_⟩
  rw [given, (isNumber number).mpr answers.2]

theorem verdict_of_not_answers (numbered : Numbered (.object message))
    (passes : ¬ Answers message number) :
    verdict number (.receive (.object message)) = .waiting := by
  obtain ⟨seq, given, isNumber⟩ := Client.requestNumber?_of_numbered numbered
  refine if_neg ?_
  rintro ⟨response, same⟩
  rw [given, Option.some.injEq] at same
  exact passes ⟨Client.isResponse_iff.mp response, (isNumber number).mp same⟩

theorem verdict_eq_waiting (readable : happening.Readable) :
    happening.verdict number = .waiting ↔ ¬ happening.Decides number := by
  cases happening with
  | receive message =>
    cases message with
    | object fields =>
      by_cases answers : Answers fields number
      · simp [verdict_of_answers readable answers, Decides, answers]
      · simp [verdict_of_not_answers readable answers, Decides, answers]
    | null | bool | int | float | text | list => exact readable.elim
  | exit | close => simp [verdict, Decides]
  | start | notify | sync | request | leave => simp [verdict, Decides]

theorem verdict_eq_answered (readable : happening.Readable) :
    happening.verdict number = .answered response ↔
      happening = .receive (.object response) ∧ Answers response number := by
  cases happening with
  | receive message =>
    cases message with
    | object fields =>
      by_cases answers : Answers fields number
      · rw [verdict_of_answers readable answers]
        constructor
        · rintro ⟨⟩
          exact ⟨rfl, answers⟩
        · rintro ⟨⟨⟩, _⟩
          rfl
      · rw [verdict_of_not_answers readable answers]
        constructor
        · rintro ⟨⟩
        · rintro ⟨⟨⟩, own⟩
          exact absurd own answers
    | null | bool | int | float | text | list => exact readable.elim
  | exit | close => simp [verdict]
  | start | notify | sync | request | leave => simp [verdict]

theorem verdict_eq_failed :
    happening.verdict number = .failed failure ↔
      failure = .exited ∧ happening = .exit ∨ failure = .closed ∧ happening = .close := by
  cases happening with
  | receive message =>
    cases message with
    | object fields =>
      rw [verdict]
      split <;> simp
    | null | bool | int | float | text | list => simp [verdict]
  | exit | close => simp [verdict, eq_comm]
  | start | notify | sync | request | leave => simp [verdict]

end Verdict

end Happening

/-- What becomes of a request that waits, by all that happens since. -/
def fate (number : Nat) (since : List Happening) : Outcome :=
  since.foldr (fun happening later => (happening.verdict number).settle later) .waiting

section Fate

variable {number : Nat} {happening : Happening} {since : List Happening} {outcome : Outcome}

theorem fate_cons : fate number (happening :: since) =
    (happening.verdict number).settle (fate number since) := rfl

theorem fate_eq_waiting :
    fate number since = .waiting ↔ ∀ happening ∈ since, happening.verdict number = .waiting := by
  induction since with
  | nil => simp [fate]
  | cons happening since ih =>
    rw [List.forall_mem_cons, ← ih, fate_cons]
    cases happening.verdict number <;> simp [Outcome.settle, Outcome.isWaiting]

theorem fate_eq_iff (decided : outcome.isWaiting = false) :
    fate number since = outcome ↔ ∃ earlier happening later,
      since = earlier ++ happening :: later ∧ happening.verdict number = outcome ∧
        ∀ other ∈ earlier, other.verdict number = .waiting := by
  constructor
  · intro reached
    induction since with
    | nil =>
      rw [← reached] at decided
      cases decided
    | cons happening since ih =>
      rw [fate_cons] at reached
      cases verdict : happening.verdict number with
      | waiting =>
        rw [verdict, Outcome.waiting_settle] at reached
        obtain ⟨earlier, first, later, rfl, told, undecided⟩ := ih reached
        exact ⟨happening :: earlier, first, later, rfl, told,
          List.forall_mem_cons.mpr ⟨verdict, undecided⟩⟩
      | answered | failed =>
        rw [verdict, Outcome.settle_of_decided rfl] at reached
        exact ⟨[], happening, since, rfl, verdict.trans reached, by simp⟩
  · rintro ⟨earlier, happening, later, rfl, rfl, undecided⟩
    induction earlier with
    | nil => exact Outcome.settle_of_decided decided _
    | cons first earlier ih =>
      obtain ⟨waits, rest⟩ := List.forall_mem_cons.mp undecided
      rw [List.cons_append, fate_cons, waits, Outcome.waiting_settle, ih rest]

end Fate

namespace Client

variable {client : Client} {number : Nat}

theorem receive?_of_numbered (client : Client) {message : Fields}
    (numbered : Numbered (.object message)) :
    ∃ seq, requestNumber? ((message.get? "request_seq").getD (.int (-1))) = some seq ∧
      client.receive? (.object message) =
        some (if isResponse message then client.settle seq (.answered message) else client) := by
  obtain ⟨seq, given, _⟩ := requestNumber?_of_numbered numbered
  refine ⟨seq, given, ?_⟩
  rw [receive?, given]
  split <;> rfl

theorem outcome?_receive (orderly : client.Orderly) (number : Nat) {message : Json}
    (numbered : Numbered message) :
    (client.step (.receive message)).outcome? number =
      (client.outcome? number).map (·.settle (Happening.verdict number (.receive message))) := by
  cases message with
  | object message =>
    obtain ⟨seq, given, received⟩ := receive?_of_numbered client numbered
    rw [step, received, Option.getD_some]
    cases response : isResponse message with
    | false => simp [Happening.verdict, response]
    | true =>
      rw [if_pos rfl, outcome?_settle orderly]
      by_cases same : (number : Int) = seq
      · simp [Happening.verdict, response, given, same]
      · simp [Happening.verdict, response, given, same, Ne.symm same]
  | null | bool | int | float | text | list => exact numbered.elim

theorem outcome?_step (orderly : client.Orderly) (given : number ≤ client.seq)
    {happening : Happening} (readable : happening.Readable) (stays : happening ≠ .leave number) :
    (client.step happening).outcome? number =
      (client.outcome? number).map (·.settle (happening.verdict number)) := by
  cases happening with
  | start | notify => simp [step, start, notify, Client.number, outcome?, Happening.verdict]
  | sync file text =>
    obtain ⟨pending, settled, _⟩ := sync_requests client file text
    simp [step, outcome?, pending, settled, Happening.verdict]
  | request command arguments =>
    have old : number ≠ client.seq + 1 := by omega
    have settled : (client.request command arguments).1.settled = client.settled := rfl
    simp [step, outcome?, pending_request, settled, old, Happening.verdict]
  | receive message => exact outcome?_receive orderly number readable
  | leave other =>
    have apart : number ≠ other := by
      rintro rfl
      exact stays rfl
    simp [step, outcome?_release, apart, Happening.verdict]
  | exit => exact outcome?_failPending orderly number .exited
  | close => exact outcome?_failPending orderly number .closed

theorem outcome?_run {since : List Happening} {outcome : Outcome} (orderly : client.Orderly)
    (given : number ≤ client.seq) (readable : ∀ happening ∈ since, happening.Readable)
    (stays : .leave number ∉ since) (found : client.outcome? number = some outcome) :
    (since.foldl step client).outcome? number = some (outcome.settle (fate number since)) := by
  -- what a step makes of the outcome is taken along, since settling is associative
  induction since generalizing client outcome with
  | nil => simpa [fate] using found
  | cons happening since ih =>
    obtain ⟨read, readable⟩ := List.forall_mem_cons.mp readable
    obtain ⟨here, stays⟩ : .leave number ≠ happening ∧ .leave number ∉ since := by
      simpa using stays
    have next := outcome?_step orderly given read here.symm
    rw [found, Option.map_some] at next
    rw [List.foldl_cons, fate_cons, ← Outcome.settle_assoc]
    exact ih (orderly.step happening) (Nat.le_trans given (seq_le_step client happening)) readable
      stays next

/-- Once it has been left, a request never comes back. -/
theorem outcome?_run_none {since : List Happening} (orderly : client.Orderly)
    (given : number ≤ client.seq) (readable : ∀ happening ∈ since, happening.Readable)
    (gone : client.outcome? number = none ∨ .leave number ∈ since) :
    (since.foldl step client).outcome? number = none := by
  induction since generalizing client with
  | nil => simpa using gone
  | cons happening since ih =>
    obtain ⟨read, readable⟩ := List.forall_mem_cons.mp readable
    have known := Nat.le_trans given (seq_le_step client happening)
    refine ih (orderly.step happening) known readable ?_
    by_cases left : happening = .leave number
    · subst left
      left
      simp [step, outcome?_release]
    · rcases gone with absent | later
      · left
        simp [outcome?_step orderly given read left, absent]
      · right
        exact (List.mem_cons.mp later).resolve_left (Ne.symm left)

/-- A happening is the first since a request was made that decides it. -/
def IsFirst (number : Nat) (happening : Happening) (since : List Happening) : Prop :=
  ∃ earlier later, since = earlier ++ happening :: later ∧
    ∀ other ∈ earlier, ¬ other.Decides number

section First

variable {since : List Happening} {outcome : Outcome}
  (readable : ∀ happening ∈ since, happening.Readable)

include readable

theorem undecided_iff :
    (∀ happening ∈ since, happening.verdict number = .waiting) ↔
      ∀ happening ∈ since, ¬ happening.Decides number :=
  forall₂_congr fun _ member => Happening.verdict_eq_waiting (readable _ member)

theorem fate_eq_iff_isFirst (decided : outcome.isWaiting = false) :
    fate number since = outcome ↔ ∃ happening, happening.Readable ∧
      happening.verdict number = outcome ∧ IsFirst number happening since := by
  rw [fate_eq_iff decided]
  constructor
  · rintro ⟨earlier, happening, later, rfl, told, undecided⟩
    obtain ⟨before, here⟩ := List.forall_mem_append.mp readable
    exact ⟨happening, here happening List.mem_cons_self, told, earlier, later, rfl,
      (undecided_iff before).mp undecided⟩
  · rintro ⟨happening, _, told, earlier, later, rfl, undecided⟩
    obtain ⟨before, _⟩ := List.forall_mem_append.mp readable
    exact ⟨earlier, happening, later, rfl, told, (undecided_iff before).mpr undecided⟩

theorem fate_eq_answered {response : Fields} :
    fate number since = .answered response ↔
      Answers response number ∧ IsFirst number (.receive (.object response)) since := by
  rw [fate_eq_iff_isFirst readable rfl]
  constructor
  · rintro ⟨happening, read, told, first⟩
    obtain ⟨rfl, answers⟩ := (Happening.verdict_eq_answered read).mp told
    exact ⟨answers, first⟩
  · rintro ⟨answers, first⟩
    have read : Happening.Readable (.receive (.object response)) := by
      obtain ⟨earlier, later, rfl, _⟩ := first
      exact readable _ (by simp)
    exact ⟨_, read, Happening.verdict_of_answers read answers, first⟩

theorem fate_eq_failed {failure : Failure} :
    fate number since = .failed failure ↔
      failure = .exited ∧ IsFirst number .exit since ∨
        failure = .closed ∧ IsFirst number .close since := by
  rw [fate_eq_iff_isFirst readable rfl]
  constructor
  · rintro ⟨happening, _, told, first⟩
    rcases Happening.verdict_eq_failed.mp told with ⟨rfl, rfl⟩ | ⟨rfl, rfl⟩
    · exact .inl ⟨rfl, first⟩
    · exact .inr ⟨rfl, first⟩
  · rintro (⟨rfl, first⟩ | ⟨rfl, first⟩)
    · exact ⟨.exit, trivial, rfl, first⟩
    · exact ⟨.close, trivial, rfl, first⟩

end First

theorem concludeRequest_answered (command : String) (response : Fields) :
    Playback.concludeRequest command none (some (.answered response)) =
      .ok ((bodyOf? response).map .object) := by
  simp only [Playback.concludeRequest]
  cases bodyOf? response <;> rfl

theorem concludeRequest_eq_ok {command : String} {outcome : Option Outcome} {body : Option Json}
    (completed : Playback.concludeRequest command none outcome = .ok body) :
    ∃ response, outcome = some (.answered response) ∧ body = (bodyOf? response).map .object := by
  cases outcome with
  | none => cases completed
  | some outcome =>
    cases outcome with
    | answered response =>
      rw [concludeRequest_answered] at completed
      exact ⟨response, rfl, (Except.ok.inj completed).symm⟩
    | waiting | failed _ => cases completed

theorem concludeRequest_eq_failed {command : String} {outcome : Outcome} {failure : Failure} :
    Playback.concludeRequest command none (some outcome) = .error (.failed failure) ↔
      outcome = .failed failure ∨ outcome = .waiting ∧ failure = .timedOut command := by
  cases outcome with
  | answered response => simp [concludeRequest_answered]
  | waiting => simp [Playback.concludeRequest, eq_comm]
  | failed other => simp [Playback.concludeRequest]

/-- What becomes of a request is what the first happening says that decides it: a response of its
own, the end of the server's output or closing. It completes with the body of that response, or
fails as that happening says, or with a time-out if there is none. Other messages pass it by, and
once it has been left nothing comes back. -/
theorem responses_reach_their_requests {since : List Happening} (before : List Happening)
    (command : String) (arguments : Json)
    (readable : ∀ happening ∈ since, happening.Readable) :
    let number := (after before).seq + 1
    let client := after (before ++ .request command arguments :: since)
    ((after before).running →
      ((after before).request command arguments).2 = .ok ⟨number, command, arguments⟩) ∧
    (.leave number ∉ since →
      (∀ response, client.outcome? number = some (.answered response) ↔
        Answers response number ∧ IsFirst number (.receive (.object response)) since) ∧
      (∀ failure, client.outcome? number = some (.failed failure) ↔
        failure = .exited ∧ IsFirst number .exit since ∨
          failure = .closed ∧ IsFirst number .close since) ∧
      (client.outcome? number = some .waiting ↔
        ∀ happening ∈ since, ¬ happening.Decides number) ∧
      let result := Playback.concludeRequest command none (client.outcome? number)
      (∀ response, Answers response number →
        IsFirst number (.receive (.object response)) since →
          result = .ok ((bodyOf? response).map .object)) ∧
      (∀ body, result = .ok body → ∃ response, Answers response number ∧
        IsFirst number (.receive (.object response)) since ∧
          body = (bodyOf? response).map .object) ∧
      (result = .error (.failed .exited) ↔ IsFirst number .exit since) ∧
      (result = .error (.failed .closed) ↔ IsFirst number .close since) ∧
      (result = .error (.failed (.timedOut command)) ↔
        ∀ happening ∈ since, ¬ happening.Decides number)) ∧
    (.leave number ∈ since → client.outcome? number = none) ∧
    (∀ message other, Numbered message → ¬ Happening.Decides other (.receive message) →
      (client.step (.receive message)).outcome? other = client.outcome? other) ∧
    (∀ other, client.outcome? other = some .waiting →
      (client.step .exit).outcome? other = some (.failed .exited) ∧
        (client.step .close).outcome? other = some (.failed .closed) ∧
      ∀ asked, Playback.concludeRequest asked none ((client.step .exit).outcome? other) =
          .error (.failed .exited) ∧
        Playback.concludeRequest asked none ((client.step .close).outcome? other) =
          .error (.failed .closed)) ∧
    (client.step .exit).pending = [] ∧ (client.step .close).pending = [] := by
  intro number client
  have made := outcome?_request (orderly_after before) command arguments
  have orderly := (orderly_after before).step (.request command arguments)
  have given : number ≤ ((after before).step (.request command arguments)).seq := Nat.le_refl _
  have reached : client = since.foldl step ((after before).step (.request command arguments)) := by
    rw [← List.foldl_cons, ← after_append]
  have orderlyClient : client.Orderly := orderly_after _
  -- the number; while the request is there; once it has been left; others; the end of reading
  refine ⟨fun running => ?_, fun stays => ?_, fun left => ?_,
    fun message other numbered passed => ?_, fun other waiting => ?_, rfl, rfl⟩
  · simp [request, Client.number, send, running, number]
  · have outcome := outcome?_run orderly given readable stays made
    rw [← reached, Outcome.waiting_settle] at outcome
    simp only [outcome, Option.some.injEq]
    refine ⟨fun response => fate_eq_answered readable, fun failure => fate_eq_failed readable,
      fate_eq_waiting.trans (undecided_iff readable), fun response answers first => ?_,
      fun body completed => ?_, ?_, ?_, ?_⟩
    · rw [(fate_eq_answered readable).mpr ⟨answers, first⟩]
      exact concludeRequest_answered command response
    · obtain ⟨response, answered, rfl⟩ := concludeRequest_eq_ok completed
      obtain ⟨answers, first⟩ := (fate_eq_answered readable).mp (Option.some.inj answered)
      exact ⟨response, answers, first, rfl⟩
    · simp [concludeRequest_eq_failed, fate_eq_failed readable]
    · simp [concludeRequest_eq_failed, fate_eq_failed readable]
    · simp [concludeRequest_eq_failed, fate_eq_failed readable, fate_eq_waiting,
        undecided_iff readable]
  · rw [reached]
    exact outcome?_run_none orderly given readable (.inr left)
  · have read : Happening.Readable (.receive message) := numbered
    have silent := (Happening.verdict_eq_waiting read).mpr passed
    simp [outcome?_receive orderlyClient other numbered, silent]
  · have exited := outcome?_failPending orderlyClient other .exited
    have closed := outcome?_failPending orderlyClient other .closed
    rw [waiting] at exited closed
    refine ⟨exited, closed, fun asked => ⟨?_, ?_⟩⟩
    · exact (congrArg (Playback.concludeRequest asked none) exited).trans rfl
    · exact (congrArg (Playback.concludeRequest asked none) closed).trans rfl

/-- A response, as the server writes it. -/
def responseTo (seq : Nat) (body : Json) : Fields :=
  [("type", .text "response"), ("request_seq", .int seq), ("success", .bool true), ("body", body)]

theorem numbered_responseTo (seq : Nat) (body : Json) :
    Numbered (.object (responseTo seq body)) := by
  intro value found
  exact ⟨seq, (Option.some.inj found).symm⟩

theorem answers_responseTo (seq : Nat) (body : Json) : Answers (responseTo seq body) seq :=
  ⟨rfl, rfl⟩

/-- A response to a request that nobody made, two responses to the first request, then the end. -/
def strayAndRepeated : List Happening :=
  [.receive (.object (responseTo 7 .null)),
    .receive (.object (responseTo 1 (.object [("displayString", .text "5")]))),
    .receive (.object (responseTo 1 (.object [("displayString", .text "6")]))), .exit]

theorem first_response_stands :
    (∀ happening ∈ strayAndRepeated, happening.Readable) ∧ .leave 1 ∉ strayAndRepeated ∧
      (after ([.start] ++ .request "quickinfo" .null :: strayAndRepeated)).outcome? 1 =
        some (.answered (responseTo 1 (.object [("displayString", .text "5")]))) ∧
      Playback.concludeRequest "quickinfo" none
          ((after ([.start] ++ .request "quickinfo" .null :: strayAndRepeated)).outcome? 1) =
        .ok (some (.object [("displayString", .text "5")])) := by
  have readable : ∀ happening ∈ strayAndRepeated, happening.Readable := by
    simp [strayAndRepeated, Happening.Readable, numbered_responseTo]
  have stays : Happening.leave 1 ∉ strayAndRepeated := by simp [strayAndRepeated]
  have reaches := (responses_reach_their_requests [.start] "quickinfo" .null readable).2.1 stays
  have first : IsFirst 1
      (.receive (.object (responseTo 1 (.object [("displayString", .text "5")]))))
      strayAndRepeated := by
    refine ⟨[.receive (.object (responseTo 7 .null))], _, rfl, ?_⟩
    simp [Happening.Decides, Answers, responseTo, Fields.get?]
  exact ⟨readable, stays, (reaches.1 _).mpr ⟨answers_responseTo 1 _, first⟩,
    reaches.2.2.2.1 _ (answers_responseTo 1 _) first⟩

end Client

end Inlay.TypeServer
