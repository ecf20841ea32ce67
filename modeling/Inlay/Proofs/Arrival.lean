import Inlay.Proofs.Undisturbed

/-!
The order in which calls are applied.

However calls interleave, each is applied once, those held back come first of all, and calls of
other threads that do not overlap keep their order. A call on the thread that runs the service is
applied at once, ahead of what other threads have queued. Where each call begins after the one
before it has returned, calls change places in this way only.
-/

namespace Inlay.Delivery

open Update State Session

/-! ## Calls that interleave -/

section

variable {shop : Workshop} {now : Delivery}

theorem Sound.held_begins_front (sound : now.Sound shop) : now.held <+: now.lines.front := by
  simp only [lines, taken]
  split
  · next turn =>
    have bound := sound.bound_of_turn turn (by simp)
    rw [sound.held_eq_nil bound (by simp [turn])]
    exact List.nil_prefix
  · rcases sound.held_or_applied with held | applied
    · rw [held]
      exact List.nil_prefix
    · rw [applied]
      exact List.prefix_rfl

variable (files : List (String × Content)) {earlier moves : List Move} {first second : Call}

/-- What is applied begins with what was held back, as far as it has come. -/
theorem held_comes_first (begins : earlier <+: moves) :
    (after shop files earlier).held <+: (after shop files moves).applied ∨
      (after shop files moves).applied <+: (after shop files earlier).held := by
  have held := (leads_after shop files earlier).sound.held_begins_front
  have grows := (leads_of_begins shop files begins).shifts.front_grows
  exact List.prefix_or_prefix_of_prefix (held.trans grows) (applied_begins_front _)

/-- Of the calls of other threads, one that has returned is applied before any that begins later. -/
theorem others_sublist (begins : earlier <+: moves)
    (returned : first ∈ (after shop files earlier).lines.returned) (other : first.own = false)
    (later : second ∉ (after shop files earlier).calls) (other' : second.own = false)
    (applied : second ∈ (after shop files moves).applied) :
    [first, second].Sublist (after shop files moves).applied := by
  have grows := (leads_of_begins shop files begins).shifts.others_grow
  have inOthers : first ∈ (after shop files earlier).lines.others :=
    List.mem_filter.mpr ⟨returned, by simp [other]⟩
  have absent : second ∉ (after shop files earlier).lines.others :=
    fun member => later ((counted_after shop files earlier).mem_of_others member)
  have seen : (after shop files moves).applied.filter (!·.own) <+:
      (after shop files moves).lines.others :=
    ((applied_begins_front _).trans (List.prefix_append _ _)).filter _
  have inSeen : second ∈ (after shop files moves).applied.filter (!·.own) :=
    List.mem_filter.mpr ⟨applied, by simp [other']⟩
  exact (pair_sublist grows seen inOthers absent inSeen).trans List.filter_sublist

end

/-- Threads bring about every session by their moves. Whatever moves they make, no call is lost and
none is applied twice, and if no more calls begin, all of them can be applied. What is applied
begins with what was held back. Of the calls of other threads, one that has returned is applied
before any that begins later. -/
theorem notifications_applied_once_in_order (shop : Workshop) (files : List (String × Content)) :
    (∀ session, Session.Reached shop files session →
        ∃ moves, (after shop files moves).Idle ∧ (after shop files moves).session = session) ∧
      ∀ moves,
        let now := after shop files moves
        Ran shop now.session now.applied ∧ now.calls.Nodup ∧ now.lines.all.Perm now.calls ∧
          (∃ next, Quietly shop now next ∧ next.Settled) ∧
          (∀ next, Quietly shop now next → next.Settled → next.applied.Perm now.calls) ∧
          (∀ earlier, earlier <+: moves →
            (after shop files earlier).held <+: now.applied ∨
              now.applied <+: (after shop files earlier).held) ∧
          ∀ earlier first second, earlier <+: moves →
            first ∈ (after shop files earlier).lines.returned → first.own = false →
            second ∉ (after shop files earlier).calls → second.own = false →
            second ∈ now.applied → [first, second].Sublist now.applied := by
  constructor
  · intro session reached
    obtain ⟨moves, _, idle, same⟩ := exists_moves_of_reached reached
    exact ⟨moves, idle, same⟩
  intro moves now
  have sound : now.Sound shop := (leads_after shop files moves).sound
  have counted : now.lines.Counted := counted_after shop files moves
  refine ⟨sound.ran, counted.nodup, counted.once, exists_settled sound, ?_, ?_, ?_⟩
  · intro next quietly settled
    have leads := quietly.leads sound
    have once := (leads.shifts.counted counted).once
    rw [settled.all_eq leads.sound] at once
    obtain ⟨more, quiet, rfl⟩ := quietly
    rw [← run_calls quiet]
    exact once
  · intro earlier begins
    exact held_comes_first files begins
  · intro earlier first second begins returned other later other' applied
    exact others_sublist files begins returned other later other' applied

/-- A shop that knows nothing about any file. -/
def bench : Workshop where
  features := .standard
  delay := 1000
  oracle _ _ := none
  parser _ _ := none
  hasReader := true
  fails _ := false

def typing (text : String) : Notice := .edited "a.ts" [.insert ⟨0, 0⟩ text]

/-- A file is opened before the service is bound. Then two calls of other threads are queued between
the binding by a third call and what that one does next. -/
def crossing : List Move :=
  [.call (.opened "a.ts" "") trivial, .look 0, .notify (typing "x") trivial, .proceed,
    .call (typing "y") trivial, .look 0, .queue 0, .call (typing "z") trivial, .look 0, .queue 0,
    .proceed, .proceed, .proceed, .work, .work]

theorem crossing_calls_applied_in_order :
    let now := after bench [] crossing
    let opening : Call := ⟨0, false, .opened "a.ts" "", trivial⟩
    let second : Call := ⟨2, false, typing "y", trivial⟩
    let third : Call := ⟨3, false, typing "z", trivial⟩
    (∃ moves, (after bench [] moves).Idle ∧
        (after bench [] moves).session = ((Session.initial []).post (typing "x")).enter) ∧
      now.Settled ∧ now.applied.Perm now.calls ∧
      ((after bench [] (crossing.take 2)).held = [opening] ∧ [opening] <+: now.applied) ∧
      second ∈ (after bench [] (crossing.take 7)).lines.returned ∧
      third ∉ (after bench [] (crossing.take 7)).calls ∧
      [second, third].Sublist now.applied := by
  intro now opening second third
  obtain ⟨reached, interleaved⟩ := notifications_applied_once_in_order bench []
  obtain ⟨_, _, _, _, complete, first, ordered⟩ := interleaved crossing
  have settled : now.Settled := ⟨by decide, by rfl, by decide, by decide⟩
  have held : (after bench [] (crossing.take 2)).held = [opening] := by decide
  have returned : second ∈ (after bench [] (crossing.take 7)).lines.returned := by decide
  have later : third ∉ (after bench [] (crossing.take 7)).calls := by decide
  refine ⟨reached _ (.enter (.post .initial (.inl (by simp [typing])))), settled,
    complete now (quietly_refl now) settled, ⟨held, ?_⟩, returned, later, ?_⟩
  · rw [← held]
    rcases first (crossing.take 2) (List.take_prefix _ _) with begins | begins
    · exact begins
    · exact absurd begins.length_le (by decide)
  · exact ordered (crossing.take 7) second third (List.take_prefix _ _) returned rfl later rfl
      (by decide)

/-! ## Calls that follow one upon the other -/

namespace Lines

variable {lines next : Lines}

theorem Shift.underWay_length_le (shift : Shift lines next) (same : next.calls = lines.calls) :
    next.underWay.length ≤ lines.underWay.length := by
  cases shift with
  | stay => exact Nat.le_refl _
  | arrive | begin => simp at same
  | hold moved | pass moved | queue moved | finish moved =>
    simp only [underWay, moved, List.length_append, List.length_cons, List.length_nil]
    omega
  | work => exact Nat.le_refl _

/-- With at most one call under way, none can be passed by another. -/
theorem Shift.all_eq (shift : Shift lines next) (same : next.calls = lines.calls)
    (alone : lines.underWay.length ≤ 1) : next.all = lines.all := by
  simp only [underWay, List.length_append] at alone
  cases shift with
  | stay => rfl
  | arrive | begin => simp at same
  | @hold before after call moved queued =>
    rw [moved, List.length_append, List.length_cons] at alone
    have none : lines.current = [] := List.eq_nil_of_length_eq_zero (by omega)
    have none' : lines.passing = [] := List.eq_nil_of_length_eq_zero (by omega)
    have first : before = [] := List.eq_nil_of_length_eq_zero (by omega)
    have last : after = [] := List.eq_nil_of_length_eq_zero (by omega)
    simp [all, moved, queued, none, none', first, last]
  | @pass before after call moved =>
    rw [moved, List.length_append, List.length_cons] at alone
    have first : before = [] := List.eq_nil_of_length_eq_zero (by omega)
    simp [all, moved, first]
  | @queue before after call moved =>
    rw [moved, List.length_append, List.length_cons] at alone
    have first : before = [] := List.eq_nil_of_length_eq_zero (by omega)
    simp [all, moved, first]
  | finish moved own => simp [all, moved]
  | work moved free => simp [all, moved, free]

end Lines

/-- A call on the thread that runs the service begins while calls of other threads are queued, and
both are among those of concern. -/
def overtakes (concerns : Notice → Bool) (now : Delivery) : Move → Bool
  | .notify notice _ =>
    now.turn.isNone && concerns notice && now.queued.any (concerns ·.notice)
  | _ => false

/-- One of the moves overtakes. -/
def Overtaking (shop : Workshop) (concerns : Notice → Bool) : Delivery → List Move → Prop
  | _, [] => False
  | now, move :: moves =>
    now.overtakes concerns move = true ∨ Overtaking shop concerns (now.step shop move) moves

/-- The calls of concern stand in line in the order in which they were made. -/
def InOrder (concerns : Notice → Bool) (now : Delivery) : Prop :=
  now.lines.all.filter (concerns ·.notice) = now.calls.filter (concerns ·.notice)

variable {shop : Workshop} {concerns : Notice → Bool} {now : Delivery}

theorem inOrder_quiet (sound : now.Sound shop) (alone : now.lines.underWay.length ≤ 1)
    {move : Move} (quiet : move.begins = false) :
    ((now.step shop move).InOrder concerns ↔ now.InOrder concerns) ∧
      (now.step shop move).lines.underWay.length ≤ 1 := by
  have shift := (follows_step sound move).shift
  have same : (now.step shop move).calls = now.calls := step_calls quiet
  refine ⟨?_, (shift.underWay_length_le same).trans alone⟩
  unfold InOrder
  rw [shift.all_eq same alone, same]

theorem inOrder_call (notice : Notice) (expected : notice.Expected) :
    (now.call notice expected).InOrder concerns ↔ now.InOrder concerns := by
  have joins : (now.call notice expected).lines.all =
      now.lines.all ++ [⟨now.calls.length, false, notice, expected⟩] := by
    simp [call, lines, Lines.all, taken, current]
  unfold InOrder
  rw [joins, call, List.filter_append, List.filter_append, List.append_left_inj]

/-- A call that is put in before the queue is at its place only if nothing of concern is queued. -/
theorem filter_insert_iff {front queued calls : List Call} {call : Call} (fresh : call ∉ queued)
    (counts : Call → Bool) :
    (front ++ [call] ++ queued).filter counts = (calls ++ [call]).filter counts ↔
      (front ++ queued).filter counts = calls.filter counts ∧
        (counts call && queued.any counts) = false := by
  cases concerned : counts call with
  | false => simp [List.filter_append, concerned]
  | true =>
    have single : [call].filter counts = [call] := List.filter_cons_of_pos concerned
    simp only [List.filter_append, single, Bool.true_and, List.any_eq_false]
    constructor
    · intro same
      have last : queued.filter counts = [] := by
        rcases List.eq_nil_or_concat (queued.filter counts) with empty | ⟨rest, last, split⟩
        · exact empty
        · rw [List.concat_eq_append] at split
          rw [split, ← List.append_assoc] at same
          have final : last = call := List.singleton_inj.mp (List.append_inj_right' same rfl)
          have member : last ∈ queued.filter counts := by simp [split]
          rw [final] at member
          exact absurd (List.mem_filter.mp member).1 fresh
      rw [last, List.append_nil] at same ⊢
      exact ⟨List.append_cancel_right same, List.filter_eq_nil_iff.mp last⟩
    · rintro ⟨same, unconcerned⟩
      have none := List.filter_eq_nil_iff.mpr unconcerned
      rw [none, List.append_nil] at same ⊢
      rw [same]

theorem inOrder_notify (counted : now.lines.Counted) (returned : now.lines.underWay = [])
    (free : now.turn = none) (notice : Notice) (expected : notice.Expected) :
    (now.notify notice expected).InOrder concerns ↔
      now.InOrder concerns ∧ now.overtakes concerns (.notify notice expected) = false := by
  let call : Call := ⟨now.calls.length, true, notice, expected⟩
  obtain ⟨busy, arriving⟩ := List.append_eq_nil_iff.mp returned
  obtain ⟨current, passing⟩ := List.append_eq_nil_iff.mp busy
  have before : now.lines.all = now.lines.front ++ now.lines.queued := by
    simp [Lines.all, current, passing, arriving]
  have after : (now.notify notice expected).lines.all =
      now.lines.front ++ [call] ++ now.lines.queued := by
    simp only [lines] at passing arriving
    simp [notify, free, Lines.all, lines, taken, Delivery.current, call, passing, arriving]
  have fresh : call ∉ now.lines.queued := by
    have absent : call ∉ now.lines.all := counted.not_mem rfl
    rw [before] at absent
    exact fun member => absent (List.mem_append_right _ member)
  have calls : (now.notify notice expected).calls = now.calls ++ [call] := by
    simp [notify, free, call]
  unfold InOrder
  rw [before, after, calls, filter_insert_iff fresh]
  simp [overtakes, free, call, lines]

theorem underWay_call (returned : now.lines.underWay = []) (notice : Notice)
    (expected : notice.Expected) : (now.call notice expected).lines.underWay.length = 1 := by
  have begun : (now.call notice expected).lines.underWay =
      now.lines.underWay ++ [⟨now.calls.length, false, notice, expected⟩] := by
    simp [call, lines, Lines.underWay, current]
  rw [begun, returned]
  rfl

theorem underWay_notify (returned : now.lines.underWay = []) (free : now.turn = none)
    (notice : Notice) (expected : notice.Expected) :
    (now.notify notice expected).lines.underWay.length = 1 := by
  have begun : (now.notify notice expected).lines.underWay =
      ⟨now.calls.length, true, notice, expected⟩ :: now.lines.underWay := by
    simp [notify, free, lines, Lines.underWay, current]
  rw [begun, returned]
  rfl

/-- One move keeps calls in order that are in order, unless it overtakes. -/
theorem inOrder_step (sound : now.Sound shop) (counted : now.lines.Counted)
    (alone : now.lines.underWay.length ≤ 1) {move : Move}
    (waits : move.begins = true → now.lines.underWay = []) :
    ((now.step shop move).InOrder concerns ↔
        now.InOrder concerns ∧ now.overtakes concerns move = false) ∧
      (now.step shop move).lines.underWay.length ≤ 1 := by
  cases move with
  | call notice expected =>
    refine ⟨?_, (underWay_call (waits rfl) notice expected).le⟩
    simp only [overtakes, and_true]
    exact inOrder_call notice expected
  | notify notice expected =>
    cases turn : now.turn with
    | none =>
      exact ⟨inOrder_notify counted (waits rfl) turn notice expected,
        (underWay_notify (waits rfl) turn notice expected).le⟩
    | some stage =>
      have busy : now.step shop (.notify notice expected) = now := by simp [step, notify, turn]
      rw [busy]
      simp [overtakes, turn, alone]
  | look | queue | enter | proceed | work | errand =>
    simp only [overtakes, and_true]
    exact inOrder_quiet sound alone rfl

theorem inOrder_run (sound : now.Sound shop) (counted : now.lines.Counted)
    (alone : now.lines.underWay.length ≤ 1) {moves : List Move}
    (sequential : Sequential shop now moves) :
    ((now.run shop moves).InOrder concerns ↔
        now.InOrder concerns ∧ ¬ Overtaking shop concerns now moves) ∧
      (now.run shop moves).lines.underWay.length ≤ 1 := by
  induction moves generalizing now with
  | nil => simp [run, Overtaking, alone]
  | cons move moves ih =>
    obtain ⟨waits, rest⟩ := sequential
    obtain ⟨stepped, alone'⟩ := @inOrder_step shop concerns now sound counted alone move waits
    have follows := follows_step sound move
    obtain ⟨ran, alone''⟩ := ih follows.sound (follows.shift.counted counted) alone' rest
    refine ⟨?_, alone''⟩
    rw [run_cons, ran, stepped, Overtaking, not_or, Bool.not_eq_true, and_assoc]

theorem inOrder_quietly {next : Delivery} (quietly : Quietly shop now next)
    (sound : now.Sound shop) (alone : now.lines.underWay.length ≤ 1) :
    next.InOrder concerns ↔ now.InOrder concerns := by
  obtain ⟨moves, quiet, rfl⟩ := quietly
  induction moves generalizing now with
  | nil => rfl
  | cons move moves ih =>
    obtain ⟨first, rest⟩ := List.forall_mem_cons.mp quiet
    obtain ⟨same, alone'⟩ := @inOrder_quiet shop concerns now sound alone move first
    exact (ih (follows_step sound move).sound alone' rest).trans same

/-- If each call begins after the one before it has returned, the calls of concern are applied in
the order in which they were made exactly if none of them is made on the thread that runs the
service while one of another thread is queued. The calls of concern may be those about one file. -/
theorem calls_applied_in_order_unless_overtaking (shop : Workshop)
    (files : List (String × Content)) {moves : List Move}
    (sequential : Sequential shop (initial files) moves) (concerns : Notice → Bool) :
    let now := after shop files moves
    (∃ next, Quietly shop now next ∧ next.Settled) ∧
      ∀ next, Quietly shop now next → next.Settled →
        Ran shop next.session next.applied ∧
          (next.applied.filter (concerns ·.notice) = now.calls.filter (concerns ·.notice) ↔
            ¬ Overtaking shop concerns (initial files) moves) := by
  intro now
  have sound : now.Sound shop := (leads_after shop files moves).sound
  refine ⟨exists_settled sound, fun next quietly settled => ?_⟩
  have leads := quietly.leads sound
  refine ⟨leads.sound.ran, ?_⟩
  obtain ⟨ordered, alone⟩ := @inOrder_run shop concerns (initial files) (sound_initial files)
    ⟨rfl, .refl _⟩ (Nat.zero_le 1) moves sequential
  have start : (initial files).InOrder concerns := rfl
  have same : next.calls = now.calls := by
    obtain ⟨more, quiet, rfl⟩ := quietly
    exact run_calls quiet
  have rested := @inOrder_quietly shop concerns now next quietly sound alone
  rw [InOrder, settled.all_eq leads.sound, same] at rested
  rw [rested]
  exact ordered.trans (and_iff_right start)

instance decidableOvertaking (shop : Workshop) (concerns : Notice → Bool) :
    ∀ (now : Delivery) (moves : List Move), Decidable (Overtaking shop concerns now moves)
  | _, [] => .isFalse id
  | now, move :: moves =>
    have := decidableOvertaking shop concerns (now.step shop move) moves
    inferInstanceAs (Decidable (_ ∨ _))

/-- A file is opened, and another thread makes an edit. -/
def editing : List Move :=
  [.enter, .proceed, .proceed, .proceed, .notify (.opened "a.ts" "") trivial, .proceed, .proceed,
    .proceed, .call (typing "x") trivial, .look 0, .queue 0]

/-- The thread that runs the service makes an edit of its own. -/
def ownEdit : List Move := [.notify (typing "y") trivial, .proceed, .proceed, .proceed]

theorem edit_after_queued_in_order :
    let moves := editing ++ [.work, .work] ++ ownEdit
    let now := after bench [] moves
    Sequential bench (initial []) moves ∧ now.Settled ∧ now.applied = now.calls := by
  intro moves now
  have sequential : Sequential bench (initial []) moves := by decide
  have settled : now.Settled := ⟨by decide, by rfl, by decide, by decide⟩
  have ordered := (calls_applied_in_order_unless_overtaking bench [] sequential
    fun _ => true).2 now (quietly_refl now) settled
  refine ⟨sequential, settled, ?_⟩
  simpa using ordered.2.mpr (by decide)

/-- An edit of another thread that is queued is applied after one that is made later. -/
theorem own_edit_applied_before_queued :
    let moves := editing ++ ownEdit ++ [.work, .work]
    let now := after bench [] moves
    let session := settle bench
      ((((Session.initial []).enter.notify (.opened "a.ts" "")).post (typing "x")).notify
        (typing "y"))
    Sequential bench (initial []) moves ∧ now.Settled ∧
      now.calls.map Call.notice = [.opened "a.ts" "", typing "x", typing "y"] ∧
      now.applied.map Call.notice = [.opened "a.ts" "", typing "y", typing "x"] ∧
      (now.session.state.registry.get? "a.ts").map Entry.text = some "xy" ∧
      (session.state.registry.get? "a.ts").map Entry.text = some "xy" ∧
      Edit.applyAll "" [.insert ⟨0, 0⟩ "x", .insert ⟨0, 0⟩ "y"] = "yx" := by
  intro moves now session
  have settled : now.Settled := ⟨by decide, by rfl, by decide, by decide⟩
  exact ⟨by decide, settled, by decide, by decide, by decide, by decide, by decide⟩

end Inlay.Delivery
