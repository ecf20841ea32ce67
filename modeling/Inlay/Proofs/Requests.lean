import Mathlib.Data.List.Basic
import Inlay.TypeServer.Client

/-!
The requests of a client, over all that may happen to it.

Calls, messages of the server, the ends of waits, the end of the server's output and closing may
come in any order. Throughout, a number belongs to one request at most, and a request that has been
taken off has been decided.
-/

namespace Inlay

section Lookup

variable {α β γ : Type} [DecidableEq α] (key : α) (entries : List (α × β))

theorem lookup_map_value (change : α → β → γ) :
    (entries.map fun (name, value) => (name, change name value)).lookup key =
      (entries.lookup key).map (change key) := by
  induction entries with
  | nil => rfl
  | cons entry rest ih =>
    obtain ⟨name, value⟩ := entry
    by_cases same : key = name
    · subst same
      simp
    · simp [List.lookup_cons, beq_false_of_ne same, ih]

theorem lookup_filter_ne (dropped : α) :
    (entries.filter (·.1 != dropped)).lookup key =
      if key = dropped then none else entries.lookup key := by
  induction entries with
  | nil => simp
  | cons entry rest ih =>
    obtain ⟨name, value⟩ := entry
    by_cases gone : name = dropped
    · subst gone
      rw [List.filter_cons_of_neg (by simp), ih]
      by_cases same : key = name
      · simp [same]
      · simp [List.lookup_cons, beq_false_of_ne same]
    · rw [List.filter_cons_of_pos (by simpa using gone)]
      by_cases same : key = name
      · subst same
        simp [gone]
      · simp [List.lookup_cons, beq_false_of_ne same, ih]

end Lookup

end Inlay

namespace Inlay.TypeServer

/-! ## Outcomes

The first one that is not waiting counts, so outcomes are a monoid in which waiting is neutral. -/

namespace Outcome

@[simp] theorem waiting_settle (result : Outcome) : Outcome.waiting.settle result = result := rfl

@[simp] theorem settle_waiting (outcome : Outcome) : outcome.settle .waiting = outcome := by
  cases outcome <;> rfl

theorem settle_assoc (first second third : Outcome) :
    (first.settle second).settle third = first.settle (second.settle third) := by
  cases first <;> rfl

theorem settle_of_decided {outcome : Outcome} (decided : outcome.isWaiting = false)
    (result : Outcome) : outcome.settle result = outcome := by
  simp [settle, decided]

theorem isWaiting_settle {outcome result : Outcome} (decided : result.isWaiting = false) :
    (outcome.settle result).isWaiting = false := by
  cases outcome with
  | waiting => exact decided
  | answered | failed => rfl

end Outcome

/-- What can happen to a client from one point where it waits to the next. -/
inductive Happening
  | start
  | notify (command : String) (arguments : Json)
  | sync (file text : String)
  | request (command : String) (arguments : Json)
  | receive (message : Json)
  /-- Whoever waits for a request goes on, with its outcome or because the time is up. -/
  | leave (number : Nat)
  | exit
  | close

namespace Client

/-- What cannot be read ends the reading. -/
def step (client : Client) : Happening → Client
  | .start => client.start
  | .notify command arguments => (client.notify command arguments).1
  | .sync file text => (client.sync file text).1
  | .request command arguments => (client.request command arguments).1
  | .receive message => (client.receive? message).getD client.exit
  | .leave number => client.release number
  | .exit => client.exit
  | .close => client.close

/-- The client after all that has happened. -/
def after (past : List Happening) : Client := past.foldl step initial

theorem after_append (past since : List Happening) :
    after (past ++ since) = since.foldl step (after past) := List.foldl_append

/-! ## Files and messages -/

section Sync

variable {client : Client} {file text : String}

theorem sync_of_current (current : client.openFiles.lookup file = some text) :
    client.sync file text = (client, []) := if_pos current

theorem sync_of_open (stale : client.openFiles.lookup file ≠ some text)
    (opened : client.isOpen file = true) :
    client.sync file text =
      let (closed, closing) := client.closeFile file
      let (reopened, opening) := closed.openFile file text
      (reopened.record file text, [closing, opening]) := by
  simp [sync, stale, opened]

theorem sync_of_unknown (unknown : client.isOpen file = false) :
    client.sync file text =
      let (opened, opening) := client.openFile file text
      (opened.record file text, [opening]) := by
  have absent : client.openFiles.lookup file = none := by simpa [isOpen] using unknown
  simp [sync, absent, unknown]

theorem sync_requests (client : Client) (file text : String) :
    (client.sync file text).1.pending = client.pending ∧
      (client.sync file text).1.settled = client.settled ∧
        client.seq ≤ (client.sync file text).1.seq := by
  by_cases current : client.openFiles.lookup file = some text
  · rw [sync_of_current current]
    exact ⟨rfl, rfl, Nat.le_refl _⟩
  · cases opened : client.isOpen file with
    | true =>
      rw [sync_of_open current opened]
      exact ⟨rfl, rfl, Nat.le_add_right client.seq 2⟩
    | false =>
      rw [sync_of_unknown opened]
      exact ⟨rfl, rfl, Nat.le_add_right client.seq 1⟩

end Sync

theorem lookup_record (client : Client) (file text other : String) :
    (client.record file text).openFiles.lookup other =
      if other = file then some text else client.openFiles.lookup other := by
  by_cases same : other = file
  · simp [record, same]
  · simp [record, List.lookup_cons, beq_false_of_ne same, lookup_filter_ne, same]

theorem receive?_eq_some {client next : Client} {message : Json}
    (received : client.receive? message = some next) :
    next = client ∨ ∃ seq result, next = client.settle seq result := by
  cases message with
  | object message =>
    rw [receive?] at received
    split at received
    · obtain ⟨seq, _, rfl⟩ := Option.map_eq_some_iff.mp received
      exact .inr ⟨seq, _, rfl⟩
    · exact .inl (Option.some.inj received).symm
  | null | bool | int | float | text | list => cases received

/-- The server's messages change nothing but requests. -/
theorem receive_keeps (client : Client) (message : Json) :
    let next := (client.receive? message).getD client.exit
    next.seq = client.seq ∧ next.running = client.running ∧ next.openFiles = client.openFiles := by
  cases received : client.receive? message with
  | none => exact ⟨rfl, rfl, rfl⟩
  | some next =>
    obtain rfl | ⟨seq, result, rfl⟩ := receive?_eq_some received <;> exact ⟨rfl, rfl, rfl⟩

/-! ## The requests after each operation -/

section Lookup

variable (client : Client) (number : Nat)

theorem pending_request (command : String) (arguments : Json) :
    (client.request command arguments).1.pending.lookup number =
      (client.pending.lookup number).or
        (if number = client.seq + 1 then some .waiting else none) := by
  simp only [request, Client.number, List.lookup_append, List.lookup_cons, List.lookup_nil]
  by_cases new : number = client.seq + 1
  · simp [new]
  · simp [new, beq_false_of_ne new]

theorem pending_settle (seq : Int) (result : Outcome) :
    (client.settle seq result).pending.lookup number =
      (client.pending.lookup number).map fun outcome =>
        if number = seq then outcome.settle result else outcome :=
  lookup_map_value number client.pending fun number outcome =>
    if number = seq then outcome.settle result else outcome

theorem settled_failPending (failure : Failure) :
    (client.failPending failure).settled.lookup number =
      (client.settled.lookup number).or
        ((client.pending.lookup number).map (·.settle (.failed failure))) := by
  simp only [failPending, List.lookup_append]
  rw [lookup_map_value number client.pending fun _ outcome => outcome.settle (.failed failure)]

theorem pending_release (left : Nat) :
    (client.release left).pending.lookup number =
      if number = left then none else client.pending.lookup number :=
  lookup_filter_ne number client.pending left

theorem settled_release (left : Nat) :
    (client.release left).settled.lookup number =
      if number = left then none else client.settled.lookup number :=
  lookup_filter_ne number client.settled left

end Lookup

/-- Only numbers that were given out have requests. Those that have been taken off are pending no
more and have been decided. -/
structure Orderly (client : Client) : Prop where
  given : ∀ number, client.seq < number →
    client.pending.lookup number = none ∧ client.settled.lookup number = none
  apart : ∀ number outcome, client.settled.lookup number = some outcome →
    client.pending.lookup number = none ∧ outcome.isWaiting = false

theorem orderly_initial : initial.Orderly := by
  constructor
  · intro number above
    exact ⟨rfl, rfl⟩
  · intro number outcome found
    simp [initial] at found

namespace Orderly

variable {client : Client}

theorem of_eq {other : Client} (orderly : client.Orderly) (pending : other.pending = client.pending)
    (settled : other.settled = client.settled) (seq : client.seq ≤ other.seq) : other.Orderly := by
  constructor
  · intro number above
    rw [pending, settled]
    exact orderly.given number (by omega)
  · intro number outcome found
    rw [settled] at found
    rw [pending]
    exact orderly.apart number outcome found

theorem request (orderly : client.Orderly) (command : String) (arguments : Json) :
    (client.request command arguments).1.Orderly := by
  constructor
  · intro number above
    have above : client.seq + 1 < number := above
    rw [pending_request, if_neg (by omega), Option.or_none]
    exact orderly.given number (by omega)
  · intro number outcome found
    have found : client.settled.lookup number = some outcome := found
    -- a number that has been taken off is not the next one
    have old : number ≠ client.seq + 1 := by
      intro new
      have := (orderly.given number (by omega)).2
      simp [this] at found
    rw [pending_request, if_neg old, Option.or_none]
    exact orderly.apart number outcome found

theorem settle (orderly : client.Orderly) (seq : Int) (result : Outcome) :
    (client.settle seq result).Orderly := by
  constructor
  · intro number above
    obtain ⟨pending, settled⟩ := orderly.given number above
    exact ⟨by simp [pending_settle, pending], settled⟩
  · intro number outcome found
    obtain ⟨pending, decided⟩ := orderly.apart number outcome found
    exact ⟨by simp [pending_settle, pending], decided⟩

theorem failPending (orderly : client.Orderly) (failure : Failure) :
    (client.failPending failure).Orderly := by
  constructor
  · intro number above
    obtain ⟨pending, settled⟩ := orderly.given number above
    exact ⟨rfl, by simp [settled_failPending, pending, settled]⟩
  · intro number outcome found
    refine ⟨rfl, ?_⟩
    rw [settled_failPending] at found
    cases old : client.settled.lookup number with
    | some decided =>
      obtain rfl : decided = outcome := by simpa [old] using found
      exact (orderly.apart number decided old).2
    | none =>
      obtain ⟨pending, _, rfl⟩ : ∃ pending, client.pending.lookup number = some pending ∧
          pending.settle (.failed failure) = outcome := by simpa [old] using found
      exact Outcome.isWaiting_settle rfl

theorem release (orderly : client.Orderly) (left : Nat) : (client.release left).Orderly := by
  constructor
  · intro number above
    obtain ⟨pending, settled⟩ := orderly.given number above
    simp [pending_release, settled_release, pending, settled]
  · intro number outcome found
    rw [settled_release] at found
    by_cases same : number = left
    · simp [same] at found
    · rw [if_neg same] at found
      rw [pending_release, if_neg same]
      exact orderly.apart number outcome found

end Orderly

section Step

variable {client : Client}

theorem Orderly.step (orderly : client.Orderly) (happening : Happening) :
    (client.step happening).Orderly := by
  cases happening with
  | start => exact orderly.of_eq rfl rfl (Nat.le_refl _)
  | notify command arguments => exact orderly.of_eq rfl rfl (Nat.le_add_right client.seq 1)
  | sync file text =>
    obtain ⟨pending, settled, seq⟩ := sync_requests client file text
    exact orderly.of_eq pending settled seq
  | request command arguments => exact orderly.request command arguments
  | receive message =>
    cases received : client.receive? message with
    | none =>
      rw [Client.step, received]
      exact orderly.failPending .exited
    | some next =>
      rw [Client.step, received, Option.getD_some]
      obtain rfl | ⟨seq, result, rfl⟩ := receive?_eq_some received
      · exact orderly
      · exact orderly.settle seq result
  | leave left => exact orderly.release left
  | exit => exact orderly.failPending .exited
  | close => exact (orderly.failPending .closed).of_eq rfl rfl (Nat.le_refl _)

theorem seq_le_step (client : Client) (happening : Happening) :
    client.seq ≤ (client.step happening).seq := by
  cases happening with
  | start | leave | exit | close => exact Nat.le_refl _
  | notify | request => exact Nat.le_add_right client.seq 1
  | sync file text => exact (sync_requests client file text).2.2
  | receive message => exact Nat.le_of_eq (receive_keeps client message).1.symm

theorem Orderly.run (orderly : client.Orderly) (since : List Happening) :
    (since.foldl Client.step client).Orderly := by
  induction since generalizing client with
  | nil => exact orderly
  | cons happening since ih => exact ih (orderly.step happening)

theorem orderly_after (past : List Happening) : (after past).Orderly := orderly_initial.run past

end Step

/-! ## What has become of a request -/

section Outcome

variable {client : Client}

theorem outcome?_failPending (orderly : client.Orderly) (number : Nat) (failure : Failure) :
    (client.failPending failure).outcome? number =
      (client.outcome? number).map (·.settle (.failed failure)) := by
  have off : (client.failPending failure).outcome? number =
      (client.failPending failure).settled.lookup number := Option.none_or
  rw [off, settled_failPending, outcome?]
  cases found : client.settled.lookup number with
  | none => simp
  | some outcome =>
    -- it was taken off before, so no later failure counts
    obtain ⟨pending, decided⟩ := orderly.apart number outcome found
    simp [pending, Outcome.settle_of_decided decided]

theorem outcome?_settle (orderly : client.Orderly) (number : Nat) (seq : Int) (result : Outcome) :
    (client.settle seq result).outcome? number =
      (client.outcome? number).map fun outcome =>
        if number = seq then outcome.settle result else outcome := by
  have kept : (client.settle seq result).settled = client.settled := rfl
  rw [outcome?, outcome?, pending_settle, kept]
  cases found : client.settled.lookup number with
  | none => simp
  | some outcome =>
    obtain ⟨pending, decided⟩ := orderly.apart number outcome found
    simp [pending, Outcome.settle_of_decided decided]

theorem outcome?_release (client : Client) (number left : Nat) :
    (client.release left).outcome? number =
      if number = left then none else client.outcome? number := by
  rw [outcome?, pending_release, settled_release]
  split <;> simp [outcome?]

/-- A request waits as soon as it is made. -/
theorem outcome?_request (orderly : client.Orderly) (command : String) (arguments : Json) :
    (client.step (.request command arguments)).outcome? (client.seq + 1) = some .waiting := by
  have fresh := (orderly.given (client.seq + 1) (by omega)).1
  simp [step, outcome?, pending_request, fresh]

end Outcome

end Client

end Inlay.TypeServer
