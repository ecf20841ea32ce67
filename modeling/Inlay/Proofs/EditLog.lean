import Mathlib.Data.List.Induction
import Inlay.Proofs.Invariant

/-!
Where the edits of a file go. The text of an open file is that of its editor with all edits since.
The text of any other file is that of its last load with the edits that waited for it and those
that came directly since; edits that came while it waited are in its queue.
-/

namespace Inlay.Update

open State

/-- The edits of a path that an event brings. -/
def Event.editsTo (path : String) : Event → List Edit
  | .notice (.edited other edits) => if other = path then edits else []
  | _ => []

/-- Whether the file has to be read before its text can be used. -/
def State.needsReload (state : State) (path : String) : Bool :=
  (state.registry.get? path).any (·.needsReload)

/-- The edits of a path that come while no reload is due. -/
def directEdits (hasReader : Bool) (path : String) (state : State) : List Event → List Edit
  | [] => []
  | event :: events =>
    (if state.needsReload path then [] else event.editsTo path) ++
      directEdits hasReader path (state.step hasReader event) events

theorem directEdits_append (hasReader : Bool) (path : String) (state : State) (events : List Event)
    (event : Event) :
    directEdits hasReader path state (events ++ [event]) =
      directEdits hasReader path state events ++
        if (state.run hasReader events).needsReload path then [] else event.editsTo path := by
  induction events generalizing state with
  | nil =>
    simp only [List.nil_append, directEdits, List.append_nil]
    rfl
  | cons first events ih =>
    have later := ih (state.step hasReader first)
    simp only [List.cons_append, directEdits, later, List.append_assoc]
    rfl

theorem applyAll_append (text : String) (first second : List Edit) :
    Edit.applyAll text (first ++ second) = Edit.applyAll (Edit.applyAll text first) second :=
  List.foldl_append

section

variable {hasReader : Bool} {state : State} {path : String} {event : Event} {entry old : Entry}

theorem Event.editsTo_edited (path : String) (edits : List Edit) :
    (Event.notice (.edited path edits)).editsTo path = edits :=
  if_pos rfl

theorem Event.editsTo_of_silent (silent : ∀ notice, event = .notice notice →
    notice.path = path → notice = .wanted path) : event.editsTo path = [] := by
  unfold editsTo
  split
  · next other edits =>
    split
    · next same => simpa using silent _ rfl same
    · rfl
  · rfl

theorem Event.editsTo_of_marked
    (cause : event = .notice (.changed path) ∨ event = .notice (.wanted path)) :
    event.editsTo path = [] := by
  rcases cause with rfl | rfl <;> rfl

theorem Loads.editsTo {base : String} (loads : Loads hasReader state path event old base) :
    event.editsTo path = [] := by
  cases loads <;> rfl

theorem Accepts.editsTo {text : String} {built : Built}
    (accepts : Accepts state path event old text built) : event.editsTo path = [] := by
  cases accepts
  rfl

/-- The editor's text takes every edit at once and nothing else. -/
theorem Becomes.text_of_opened (becomes : Becomes hasReader state path event entry)
    (supported : Language.isSupported path) (known : state.registry.get? path = some old)
    (consistent : old.Consistent) (opened : old.opened = true)
    (again : ∀ text, event ≠ .notice (.opened path text)) :
    entry.opened = true ∧ entry.text = Edit.applyAll old.text (event.editsTo path) := by
  obtain ⟨loaded, current, _⟩ := consistent.opened opened
  cases becomes with
  | kept known' silent =>
    obtain rfl := Option.some.inj (known.symm.trans known')
    rw [Event.editsTo_of_silent (silent supported)]
    exact ⟨opened, rfl⟩
  | opened _ => exact absurd rfl (again _)
  | edited _ =>
    rw [Registry.entryFor_of_get? known]
    have direct : old.isWaiting = false := by simp [Entry.isWaiting, loaded, current]
    rw [Event.editsTo_edited]
    simp [Entry.change, direct, Entry.bump, opened]
  | marked _ cause =>
    rw [Registry.entryFor_of_get? known, Event.editsTo_of_marked cause]
    exact ⟨opened, rfl⟩
  | loaded loads =>
    obtain rfl := Option.some.inj (known.symm.trans loads.known)
    simp [loads.needsReload consistent] at current
  | unread known' _ | failed known' =>
    obtain rfl := Option.some.inj (known.symm.trans known')
    exact ⟨opened, rfl⟩
  | accepted accepts =>
    obtain rfl := Option.some.inj (known.symm.trans accepts.known)
    rw [accept_eq, accepts.editsTo]
    exact ⟨opened, rfl⟩

/-- Text that was loaded takes the edits that come while no reload is due. -/
theorem Becomes.text_of_loaded (becomes : Becomes hasReader state path event entry)
    (supported : Language.isSupported path) (unopened : entry.opened = false)
    (loaded : entry.loaded = true)
    (unloaded : ¬ ∃ old base, Loads hasReader state path event old base) :
    ∃ old, state.registry.get? path = some old ∧ old.birth = entry.birth ∧ old.opened = false ∧
      old.loaded = true ∧ entry.text =
        Edit.applyAll old.text (if old.needsReload then [] else event.editsTo path) := by
  cases becomes with
  | kept known silent =>
    rw [Event.editsTo_of_silent (silent supported)]
    exact ⟨entry, known, rfl, unopened, loaded, by split <;> rfl⟩
  | opened _ => simp [Entry.opening, Entry.bump] at unopened
  | edited _ =>
    rcases state.registry.entryFor_cases path with ⟨_, eq⟩ | ⟨old, known, eq⟩
    · simp [eq, Entry.change, Entry.new, Entry.isWaiting, Entry.bump] at loaded
    · rw [eq] at unopened loaded ⊢
      rw [Event.editsTo_edited]
      by_cases waits : old.isWaiting = true
      · rw [Entry.change, if_pos waits] at unopened loaded ⊢
        have loaded : old.loaded = true := loaded
        have due : old.needsReload = true := by simpa [Entry.isWaiting, loaded] using waits
        exact ⟨old, known, rfl, unopened, loaded, by simp [due, Entry.bump, Edit.applyAll]⟩
      · rw [Entry.change, if_neg waits] at unopened loaded ⊢
        have current : old.needsReload = false := by
          simp only [Entry.isWaiting, Bool.or_eq_true, not_or] at waits
          simpa using waits.2
        refine ⟨old, known, ?_, ?_, ?_, ?_⟩
        · simp [Entry.bump]
        · simpa [Entry.bump] using unopened
        · simpa [Entry.bump] using loaded
        · simp [Entry.bump, current]
  | marked _ cause =>
    rcases state.registry.entryFor_cases path with ⟨_, eq⟩ | ⟨old, known, eq⟩
    · simp [eq, Entry.markReload, Entry.new, Entry.bump] at loaded
    · rw [eq] at unopened loaded ⊢
      rw [Event.editsTo_of_marked cause]
      exact ⟨old, known, rfl, unopened, loaded, by split <;> rfl⟩
  | loaded loads => exact absurd ⟨_, _, loads⟩ unloaded
  | @unread _ old known _ =>
    exact ⟨old, known, rfl, unopened, loaded, by split <;> rfl⟩
  | @failed _ old known =>
    exact ⟨old, known, rfl, unopened, loaded, by split <;> rfl⟩
  | @accepted _ old _ _ accepts =>
    rw [accept_eq] at unopened loaded ⊢
    rw [accepts.editsTo]
    exact ⟨old, accepts.known, rfl, unopened, loaded, by rw [ite_self]; rfl⟩

/-- The queue takes the edits that come while the entry waits, and is empty when it begins to. -/
theorem Becomes.pending_of_waiting (becomes : Becomes hasReader state path event entry)
    (supported : Language.isSupported path)
    (consistent : ∀ entry, state.registry.get? path = some entry → entry.Consistent)
    (waiting : entry.isWaiting = true) :
    ((∀ old, state.registry.get? path = some old → old.isWaiting = false) ∧
        entry.pending = event.editsTo path) ∨
      ∃ old, state.registry.get? path = some old ∧ old.birth = entry.birth ∧
        old.isWaiting = true ∧ entry.pending = old.pending ++ event.editsTo path := by
  cases becomes with
  | kept known silent =>
    rw [Event.editsTo_of_silent (silent supported)]
    exact .inr ⟨entry, known, rfl, waiting, by simp⟩
  | opened _ => simp [Entry.opening, Entry.replaceText, Entry.bump, Entry.isWaiting] at waiting
  | edited _ =>
    rw [Event.editsTo_edited]
    rcases state.registry.entryFor_cases path with ⟨unknown, eq⟩ | ⟨old, known, eq⟩
    · refine .inl ⟨by simp [unknown], ?_⟩
      simp [eq, Entry.change, Entry.new, Entry.isWaiting, Entry.bump]
    · rw [eq] at waiting ⊢
      by_cases waits : old.isWaiting = true
      · rw [Entry.change, if_pos waits]
        exact .inr ⟨old, known, rfl, waits, rfl⟩
      · rw [Entry.change, if_neg waits] at waiting
        exact absurd (by simpa [Entry.isWaiting, Entry.bump] using waiting) waits
  | marked _ cause =>
    rw [Event.editsTo_of_marked cause]
    rcases state.registry.entryFor_cases path with ⟨unknown, eq⟩ | ⟨old, known, eq⟩
    · exact .inl ⟨by simp [unknown], by simp [eq, Entry.markReload, Entry.new, Entry.bump]⟩
    · rw [eq]
      by_cases waits : old.isWaiting = true
      · exact .inr ⟨old, known, rfl, waits, by simp [Entry.markReload, Entry.bump]⟩
      · have idle : old.isWaiting = false := by simpa using waits
        refine .inl ⟨fun other known' => ?_, ?_⟩
        · obtain rfl := Option.some.inj (known.symm.trans known')
          exact idle
        · exact (consistent old known).pending_of_idle idle
  | loaded loads =>
    rw [Entry.load_eq] at waiting
    simp [Entry.isWaiting] at waiting
  | @unread _ old known _ =>
    have unloaded : old.loaded = false := by simpa [Entry.isWaiting] using waiting
    exact .inr ⟨old, known, rfl, by simp [Entry.isWaiting, unloaded], by simp [Event.editsTo]⟩
  | @failed _ old known => exact .inr ⟨old, known, rfl, waiting, by simp [Event.editsTo]⟩
  | @accepted _ old _ _ accepts =>
    rw [accept_eq] at waiting ⊢
    rw [accepts.editsTo]
    exact .inr ⟨old, accepts.known, rfl, waiting, by simp⟩

/-- Only an editor opens an entry. -/
theorem Becomes.opened_before (becomes : Becomes hasReader state path event entry)
    (opened : entry.opened = true) :
    (∃ text, event = .notice (.opened path text)) ∨
      state.Has path entry.birth (·.opened = true) := by
  cases becomes with
  | kept known _ => exact .inr ⟨entry, known, rfl, opened⟩
  | opened _ => exact .inl ⟨_, rfl⟩
  | edited _ =>
    rcases state.registry.entryFor_cases path with ⟨_, eq⟩ | ⟨old, known, eq⟩
    · simp [eq, Entry.change, Entry.new, Entry.isWaiting, Entry.bump] at opened
    · rw [eq] at opened ⊢
      exact .inr ⟨old, known, by simp, by simpa using opened⟩
  | marked _ _ =>
    rcases state.registry.entryFor_cases path with ⟨_, eq⟩ | ⟨old, known, eq⟩
    · simp [eq, Entry.markReload, Entry.new, Entry.bump] at opened
    · rw [eq] at opened ⊢
      exact .inr ⟨old, known, rfl, opened⟩
  | loaded loads =>
    rw [Entry.load_eq] at opened ⊢
    exact .inr ⟨_, loads.known, rfl, opened⟩
  | unread known _ | failed known => exact .inr ⟨_, known, rfl, opened⟩
  | accepted accepts =>
    rw [accept_eq] at opened ⊢
    exact .inr ⟨_, accepts.known, rfl, opened⟩

/-! ## Along a run -/

theorem run_opened {later : Entry} {events : List Event} (valid : Valid state)
    (known : state.registry.get? path = some entry) (opened : entry.opened = true)
    (again : ∀ text, .notice (.opened path text) ∉ events)
    (found : (state.run hasReader events).registry.get? path = some later)
    (same : later.birth = entry.birth) :
    later.text = Edit.applyAll entry.text (events.flatMap (Event.editsTo path)) ∧
      later.pending = [] := by
  induction events generalizing state entry with
  | nil =>
    obtain rfl := Option.some.inj (known.symm.trans found)
    exact ⟨rfl, ((valid.consistent path entry known).opened opened).2.2⟩
  | cons event events ih =>
    have valid' := valid_step hasReader event valid
    have older : later.birth < (state.step hasReader event).registry.births := by
      rw [same]
      exact Nat.lt_of_lt_of_le (valid.born path entry known)
        (registers_of_step (step_spec hasReader state event)).births_le
    have found' : ((state.step hasReader event).run hasReader events).registry.get? path =
        some later := found
    obtain ⟨now, known', birth, _⟩ := run_origin found' older
    obtain ⟨opened', text⟩ := (step_becomes known').text_of_opened
      (valid.supported path entry known) known (valid.consistent path entry known) opened
      (by rintro text rfl; exact again text List.mem_cons_self)
    obtain ⟨text', empty⟩ := ih valid' known' opened'
      (fun text member => again text (List.mem_cons_of_mem event member)) found' birth.symm
    exact ⟨by rw [text', text, List.flatMap_cons, applyAll_append], empty⟩

end

section

variable {hasReader : Bool} {path : String} {entry : Entry} {events : List Event}

/-- An editor gives its text to the entry. -/
theorem opened_by_editor {past : List Event} {text : String}
    (found : (after hasReader (past ++ [.notice (.opened path text)])).registry.get? path =
      some entry) : entry.opened = true ∧ entry.text = text := by
  have supported := (valid_after hasReader _).supported path entry found
  rw [after_concat] at found
  cases step_becomes found with
  | kept _ silent => simpa using silent supported _ rfl rfl
  | opened _ => exact ⟨rfl, rfl⟩
  | marked _ cause => simp at cause
  | loaded loads => cases loads
  | accepted accepts => cases accepts

/-- An entry is open only if an editor opened it. -/
theorem exists_opened (found : (after hasReader events).registry.get? path = some entry)
    (opened : entry.opened = true) :
    ∃ past text recent, events = past ++ .notice (.opened path text) :: recent ∧
      (after hasReader (past ++ [.notice (.opened path text)])).Has path entry.birth
        fun _ => True := by
  induction events using List.reverseRecOn generalizing entry with
  | nil => exact absurd found (by simp [get?_after_nil])
  | append_singleton events event ih =>
    have found' := found
    rw [after_concat] at found'
    rcases (step_becomes found').opened_before opened with ⟨text, rfl⟩ | ⟨old, known, birth, open'⟩
    · exact ⟨events, text, [], rfl, entry, found, rfl, trivial⟩
    · obtain ⟨past, text, recent, rfl, has⟩ := ih known open'
      refine ⟨past, text, recent ++ [event], by simp, ?_⟩
      rwa [birth] at has

theorem Loads.step {state : State} {event : Event} {old : Entry} {base : String}
    (loads : Loads hasReader state path event old base) :
    (state.step hasReader event).registry.get? path = some (old.load base) := by
  have installed : (state.modify path (·.load base)).registry.get? path = some (old.load base) := by
    simp [State.modify, Registry.get?_modify, loads.known]
  have owned : state.entryOf? path old.birth = some old := entryOf?_eq_some.mpr ⟨loads.known, rfl⟩
  cases loads with
  | read job known waits =>
    simp only [State.step, job, finishRead, owned, waits, if_true]
    rw [startBuild_load _ _ known]
    exact installed
  | unreadable job known loaded queued =>
    have replays : (old.loaded && !old.pending.isEmpty) = true := by simp [loaded, queued]
    simp only [State.step, job, finishRead, owned, replays, if_true]
    rw [startBuild_load _ _ known]
    exact installed
  | unread alone job known waits =>
    simp only [State.step, job, State.fire, known, waits, alone]
    rw [if_neg (by simp), if_neg (by simp), startBuild_load _ _ known]
    exact installed

/-- Text that no editor gave is that of the last load, with the edits queued then and those that
came directly since. -/
theorem text_since_load (found : (after hasReader events).registry.get? path = some entry)
    (unopened : entry.opened = false) (loaded : entry.loaded = true) :
    ∃ past event recent old base, events = past ++ event :: recent ∧
      Loads hasReader (after hasReader past) path event old base ∧ old.birth = entry.birth ∧
      Never hasReader (after hasReader (past ++ [event])) recent
        (fun state event => ∃ old base, Loads hasReader state path event old base) ∧
      entry.text = Edit.applyAll base
        (old.pending ++ directEdits hasReader path (after hasReader (past ++ [event])) recent) := by
  induction events using List.reverseRecOn generalizing entry with
  | nil => exact absurd found (by simp [get?_after_nil])
  | append_singleton events event ih =>
    have supported := (valid_after hasReader _).supported path entry found
    rw [after_concat] at found
    by_cases loads : ∃ old base, Loads hasReader (after hasReader events) path event old base
    · obtain ⟨old, base, loads⟩ := loads
      obtain rfl := Option.some.inj (loads.step.symm.trans found)
      refine ⟨events, event, [], old, base, rfl, loads, ?_, .nil, ?_⟩
      · rw [Entry.load_eq]
      · rw [Entry.load_eq, directEdits, List.append_nil]
    · obtain ⟨old, known, birth, unopened', loaded', text⟩ :=
        (step_becomes found).text_of_loaded supported unopened loaded loads
      obtain ⟨past, first, recent, start, base, rfl, began, birth', never, text'⟩ :=
        ih known unopened' loaded'
      have here : (after hasReader (past ++ [first])).run hasReader recent =
          after hasReader (past ++ first :: recent) := by
        rw [← after_append, List.append_assoc, List.singleton_append]
      have due : (after hasReader (past ++ first :: recent)).needsReload path =
          old.needsReload := by
        simp [State.needsReload, known]
      refine ⟨past, first, recent ++ [event], start, base, by simp, began, birth'.trans birth,
        never.append (here ▸ loads), ?_⟩
      rw [text, text', ← applyAll_append, directEdits_append, here, due, List.append_assoc]

/-- The queue holds the edits since the entry began to wait. -/
theorem pending_since_waiting (found : (after hasReader events).registry.get? path = some entry)
    (waiting : entry.isWaiting = true) :
    ∃ past event recent, events = past ++ event :: recent ∧
      (∀ old, (after hasReader past).registry.get? path = some old → old.isWaiting = false) ∧
      Always hasReader (after hasReader (past ++ [event])) recent
        (fun state => state.Has path entry.birth (·.isWaiting = true)) ∧
      entry.pending = (event :: recent).flatMap (Event.editsTo path) := by
  induction events using List.reverseRecOn generalizing entry with
  | nil => exact absurd found (by simp [get?_after_nil])
  | append_singleton events event ih =>
    have valid := valid_after hasReader events
    have supported := (valid_after hasReader _).supported path entry found
    have found' := found
    rw [after_concat] at found'
    rcases (step_becomes found').pending_of_waiting supported (valid.consistent path) waiting with
      ⟨idle, pending⟩ | ⟨old, known, birth, waiting', pending⟩
    · refine ⟨events, event, [], rfl, idle, ?_, by simpa using pending⟩
      intro recent isPrefix
      obtain rfl := List.prefix_nil.mp isPrefix
      exact ⟨entry, found, rfl, waiting⟩
    · obtain ⟨past, first, recent, rfl, idle, always, queued⟩ := ih known waiting'
      rw [birth] at always
      refine ⟨past, first, recent ++ [event], by simp, idle, always.append ?_, ?_⟩
      · rw [← after_append]
        exact ⟨entry, by simpa using found, rfl, waiting⟩
      · rw [pending, queued, ← List.cons_append, List.flatMap_append]
        simp

end

/-- No edit is lost, applied twice or out of order. The text of an entry that an editor opened is
the editor's with all edits since. Any other text, once there is one, is that of the last load with
the edits queued then and those that came directly since. The queue holds the edits since the entry
began to wait, and nothing while it does not. -/
theorem edits_applied_in_order {hasReader : Bool} {events : List Event} {path : String}
    {entry : Entry} (found : (after hasReader events).registry.get? path = some entry) :
    (∀ past text recent, events = past ++ .notice (.opened path text) :: recent →
      (after hasReader (past ++ [.notice (.opened path text)])).Has path entry.birth
        (fun _ => True) →
      (∀ other, .notice (.opened path other) ∉ recent) →
        entry.text = Edit.applyAll text (recent.flatMap (Event.editsTo path)) ∧
          entry.pending = []) ∧
    ((¬ ∃ past text recent, events = past ++ .notice (.opened path text) :: recent ∧
        (after hasReader (past ++ [.notice (.opened path text)])).Has path entry.birth
          fun _ => True) →
      entry.loaded = true →
        ∃ past event recent old base, events = past ++ event :: recent ∧
          Loads hasReader (after hasReader past) path event old base ∧ old.birth = entry.birth ∧
          Never hasReader (after hasReader (past ++ [event])) recent
            (fun state event => ∃ old base, Loads hasReader state path event old base) ∧
          entry.text = Edit.applyAll base (old.pending ++
            directEdits hasReader path (after hasReader (past ++ [event])) recent)) ∧
    (entry.isWaiting = false → entry.pending = []) ∧
    (entry.isWaiting = true →
      ∃ past event recent, events = past ++ event :: recent ∧
        (∀ old, (after hasReader past).registry.get? path = some old → old.isWaiting = false) ∧
        Always hasReader (after hasReader (past ++ [event])) recent
          (fun state => state.Has path entry.birth (·.isWaiting = true)) ∧
        entry.pending = (event :: recent).flatMap (Event.editsTo path)) := by
  refine ⟨?_, ?_, ?_, pending_since_waiting found⟩
  · rintro past text recent rfl ⟨start, known, birth, _⟩ again
    obtain ⟨opened, rfl⟩ := opened_by_editor known
    rw [List.append_cons, after_append] at found
    exact run_opened (valid_after hasReader _) known opened again found birth.symm
  · intro never loaded
    have unopened : entry.opened = false := by
      by_contra opened
      exact never (exists_opened found (by simpa using opened))
    exact text_since_load found unopened loaded
  · exact ((valid_after hasReader events).consistent path entry found).pending_of_idle

/-- A file is edited while it is read, after that, and once more when it has changed again. The
first two edits are in the text and the third is queued. -/
theorem edits_around_reload_applied :
    let type (text : String) : Event := .notice (.edited "a.ts" [.insert ⟨0, 0⟩ text])
    let events : List Event := [.notice (.changed "a.ts"), .fire 0, type "b", .read 0 (.ok "a"),
      type "c", .notice (.changed "a.ts"), type "d"]
    let entry : Entry :=
      ⟨"a.ts", 0, "cba", [], 5, true, true, false, true, [.insert ⟨0, 0⟩ "d"]⟩
    (after true events).registry.get? "a.ts" = some entry ∧
      (∃ past event recent old base, events = past ++ event :: recent ∧
        Loads true (after true past) "a.ts" event old base ∧
        "cba" = Edit.applyAll base
          (old.pending ++ directEdits true "a.ts" (after true (past ++ [event])) recent)) ∧
      ∃ past event recent, events = past ++ event :: recent ∧
        [.insert ⟨0, 0⟩ "d"] = (event :: recent).flatMap (Event.editsTo "a.ts") := by
  intro type events entry
  have found : (after true events).registry.get? "a.ts" = some entry := by decide
  obtain ⟨_, loaded, _, queued⟩ := edits_applied_in_order found
  have unopened : ¬ ∃ past text recent, events = past ++ .notice (.opened "a.ts" text) :: recent ∧
      (after true (past ++ [.notice (.opened "a.ts" text)])).Has "a.ts" entry.birth
        fun _ => True := by
    rintro ⟨past, text, recent, split, _⟩
    have member : .notice (.opened "a.ts" text) ∈ events := by rw [split]; simp
    simp [events, type] at member
  obtain ⟨past, event, recent, old, base, split, loads, _, _, text⟩ := loaded unopened rfl
  obtain ⟨past', event', recent', split', _, _, pending⟩ := queued rfl
  exact ⟨found, ⟨past, event, recent, old, base, split, loads, text⟩,
    past', event', recent', split', pending⟩

end Inlay.Update
