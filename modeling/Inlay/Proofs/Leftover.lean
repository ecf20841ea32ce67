import Inlay.Proofs.Playback

/-!
What a request leaves behind.

Once whoever waits for a request goes on, the client is as if the request had only used up its
number, whatever has come in between. A request that could not be sent is waited for by nobody:
it stays pending until the reading ends or the client is closed.
-/

namespace Inlay.TypeServer

namespace Client

/-! ## Requests that are waited for -/

section Release

variable (client : Client) (number : Nat)

theorem release_settle (seq : Int) (result : Outcome) :
    (client.settle seq result).release number = (client.release number).settle seq result := by
  simp only [release, settle, List.filter_map]
  rfl

theorem release_failPending (failure : Failure) :
    (client.failPending failure).release number =
      (client.release number).failPending failure := by
  simp only [release, failPending, List.filter_append, List.filter_map, List.filter_nil]
  rfl

theorem release_release (other : Nat) :
    (client.release other).release number = (client.release number).release other := by
  simp only [release, List.filter_filter, Bool.and_comm]

theorem release_sync (file text : String) :
    (client.sync file text).1.release number = ((client.release number).sync file text).1 := by
  have opened : (client.release number).isOpen file = client.isOpen file := rfl
  have files : (client.release number).openFiles = client.openFiles := rfl
  unfold sync
  rw [opened, files]
  split
  · rfl
  · cases client.isOpen file <;> rfl

theorem release_receive (message : Json) :
    ((client.receive? message).getD client.exit).release number =
      ((client.release number).receive? message).getD (client.release number).exit := by
  cases message with
  | object message =>
    rw [receive?, receive?]
    split
    · cases requestNumber? _ with
      | none => exact release_failPending client number .exited
      | some seq => exact release_settle client number seq _
    · rfl
  | null | bool | int | float | text | list => exact release_failPending client number .exited

variable {client number}

/-- Forgetting a request is put off past whatever happens. -/
theorem release_step (given : number ≤ client.seq) (happening : Happening) :
    (client.step happening).release number = (client.release number).step happening := by
  cases happening with
  | start | notify => rfl
  | sync file text => exact release_sync client number file text
  | request command arguments =>
    have new : client.seq + 1 ≠ number := by omega
    simp [step, release, request, Client.number, new]
  | receive message => exact release_receive client number message
  | leave other => exact release_release client number other
  | exit => exact release_failPending client number .exited
  | close =>
    exact congrArg (fun client : Client => { client with running := false, openFiles := [] })
      (release_failPending client number .closed)

theorem release_run (given : number ≤ client.seq) (since : List Happening) :
    (since.foldl step client).release number = since.foldl step (client.release number) := by
  induction since generalizing client with
  | nil => rfl
  | cons happening since ih =>
    rw [List.foldl_cons, List.foldl_cons, ih (Nat.le_trans given (seq_le_step client happening)),
      release_step given]

theorem filter_of_lookup_eq_none {requests : Requests} (absent : requests.lookup number = none) :
    requests.filter (·.1 != number) = requests := by
  rw [List.filter_eq_self]
  intro entry isEntry
  rw [bne_iff_ne]
  rintro rfl
  exact absurd (List.lookup_eq_none_iff.mp absent entry isEntry) (by simp)

/-- A request that is forgotten at once has used up a number. -/
theorem release_request (orderly : client.Orderly) (command : String) (arguments : Json) :
    (client.step (.request command arguments)).release (client.seq + 1) =
      client.step (.notify command arguments) := by
  obtain ⟨pending, settled⟩ := orderly.given (client.seq + 1) (Nat.lt_succ_self _)
  simp [step, release, request, notify, Client.number, filter_of_lookup_eq_none pending,
    filter_of_lookup_eq_none settled]

/-- Whoever goes on after a request leaves the client as if the request had been a message that
nobody answers. -/
theorem left_request_leaves_nothing (past since : List Happening) (command : String)
    (arguments : Json) :
    after (past ++ .request command arguments :: since ++ [.leave ((after past).seq + 1)]) =
      after (past ++ .notify command arguments :: since) := by
  have given : (after past).seq + 1 ≤ ((after past).step (.request command arguments)).seq :=
    Nat.le_refl _
  rw [after_append, after_append, after_append, List.foldl_cons, List.foldl_cons]
  calc (since.foldl step ((after past).step (.request command arguments))).release
        ((after past).seq + 1)
    _ = since.foldl step (((after past).step (.request command arguments)).release
          ((after past).seq + 1)) := release_run given since
    _ = since.foldl step ((after past).step (.notify command arguments)) := by
      rw [release_request (orderly_after past)]

end Release

end Client

/-! ## Requests that are not sent -/

/-- Whether a request that is pending stays so. -/
def Happening.spares (number : Nat) : Happening → Bool
  | .start | .notify _ _ | .sync _ _ | .request _ _ => true
  | .receive message => (Client.initial.receive? message).isSome
  | .leave other => other != number
  | .exit | .close => false

namespace Client

variable {client : Client} {number : Nat}

/-- Whether a message can be read does not depend on the requests. -/
theorem isSome_receive? (client other : Client) (message : Json) :
    (client.receive? message).isSome = (other.receive? message).isSome := by
  cases message with
  | object message =>
    rw [receive?, receive?]
    split <;> simp
  | null | bool | int | float | text | list => rfl

theorem pending_step {happening : Happening} (spared : happening.spares number = true)
    (pending : (client.pending.lookup number).isSome = true) :
    ((client.step happening).pending.lookup number).isSome = true := by
  cases happening with
  | start | notify => exact pending
  | sync file text =>
    rw [step, (sync_requests client file text).1]
    exact pending
  | request command arguments =>
    rw [step, pending_request, Option.isSome_or, pending, Bool.true_or]
  | receive message =>
    obtain ⟨next, received⟩ := Option.isSome_iff_exists.mp
      ((isSome_receive? client initial message).trans spared)
    rw [step, received, Option.getD_some]
    obtain rfl | ⟨seq, result, rfl⟩ := receive?_eq_some received
    · exact pending
    · rw [pending_settle, Option.isSome_map, pending]
  | leave other =>
    have kept : number ≠ other := fun same => by simp [Happening.spares, same] at spared
    rw [step, pending_release, if_neg kept, pending]
  | exit | close => cases spared

theorem pending_run {since : List Happening}
    (spared : ∀ happening ∈ since, happening.spares number = true)
    (pending : (client.pending.lookup number).isSome = true) :
    ((since.foldl step client).pending.lookup number).isSome = true := by
  induction since generalizing client with
  | nil => exact pending
  | cons happening since ih =>
    obtain ⟨first, later⟩ := List.forall_mem_cons.mp spared
    exact ih later (pending_step first pending)

end Client

namespace Playback

variable {play : Playback}

theorem run_request_of_stopped (stopped : play.client.running = false)
    (idle : play.reading = false) (command : String) (arguments : Json) :
    play.run (.request command arguments) =
      ({ play with client := play.client.step (.request command arguments) },
        .error (.failed .notRunning)) := by
  have unsent : play.client.request command arguments =
      (play.client.step (.request command arguments), .error .notRunning) := by
    simp [Client.step, Client.request, Client.number, Client.send, stopped]
  simp [run, begin, ask, unsent, wait, Started.isClosing, readAvailable, idle, conclude]

/-- A request to a server that does not run has failed, and is pending until the reading ends or
the client is closed. -/
theorem unsent_request_stays_pending (traced : play.Traced) (stopped : play.client.running = false)
    (idle : play.reading = false) (command : String) (arguments : Json) :
    let number := play.client.seq + 1
    let (next, result) := play.run (.request command arguments)
    result = .error (.failed .notRunning) ∧
      next.client.pending.lookup number = some .waiting ∧
      ∀ since : List Happening, (∀ happening ∈ since, happening.spares number = true) →
        ((since.foldl Client.step next.client).pending.lookup number).isSome = true := by
  intro number
  rw [run_request_of_stopped stopped idle]
  obtain ⟨past, reached⟩ := traced
  have fresh : play.client.pending.lookup number = none := by
    rw [reached]
    exact ((Client.orderly_after past).given number (reached ▸ Nat.lt_succ_self _)).1
  have pending : (play.client.step (.request command arguments)).pending.lookup number =
      some .waiting := by
    rw [Client.step, Client.pending_request, fresh, if_pos rfl, Option.none_or]
  refine ⟨rfl, pending, fun since spared => ?_⟩
  exact Client.pending_run spared (Option.isSome_of_eq_some pending)

end Playback

end Inlay.TypeServer
