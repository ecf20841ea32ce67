import Mathlib.Data.List.Nodup
import Mathlib.Data.List.Perm.Basic
import Mathlib.Logic.Relation
import Inlay.Proofs.Session

/-!
Calls that stand in line until their notifications are applied.

Calls move on from line to line, and new ones join. Two lists only ever grow at their ends: the
calls at the front, and among those that have returned the calls of other threads. Whoever is in
such a list before another joins it is applied before that one.
-/

namespace Inlay.Delivery

/-- A notification that somebody sends. Calls are numbered as they begin. Those that are `own` are
made on the thread that runs the service. -/
structure Call where
  number : Nat
  own : Bool
  notice : Notice
  expected : notice.Expected
  deriving DecidableEq

/-- Where calls stand. Those at the front are applied, or else applied before all others. -/
structure Lines where
  front : List Call
  /-- The call under way on the thread that runs the service. -/
  current : List Call
  /-- Those that wait until the thread that runs the service gets to them. -/
  queued : List Call
  /-- Those that found the service bound and are about to be queued. -/
  passing : List Call
  /-- Those that have just begun on other threads. -/
  arriving : List Call
  /-- All calls so far, in the order in which they began. -/
  calls : List Call

namespace Lines

/-- The calls in the order in which they are applied if no other begins and none of those under way
is held up. -/
def all (lines : Lines) : List Call :=
  lines.front ++ lines.current ++ lines.queued ++ lines.passing ++ lines.arriving

/-- The calls that have begun and not returned. -/
def underWay (lines : Lines) : List Call := lines.current ++ lines.passing ++ lines.arriving

/-- The calls that have returned. -/
def returned (lines : Lines) : List Call := lines.front ++ lines.queued

/-- The calls of other threads that have returned. -/
def others (lines : Lines) : List Call := lines.returned.filter (!·.own)

/-- Every call that has begun stands in line once. -/
structure Counted (lines : Lines) : Prop where
  numbers : lines.calls.map Call.number = List.range lines.calls.length
  once : lines.all.Perm lines.calls

/-- How calls move on. -/
inductive Shift : Lines → Lines → Prop
  | stay (lines : Lines) : Shift lines lines
  | arrive (lines : Lines) (call : Call) (number : call.number = lines.calls.length) :
      Shift lines
        { lines with arriving := lines.arriving ++ [call], calls := lines.calls ++ [call] }
  | hold (lines : Lines) {before after : List Call} {call : Call}
      (arriving : lines.arriving = before ++ call :: after) (queued : lines.queued = []) :
      Shift lines { lines with front := lines.front ++ [call], arriving := before ++ after }
  | pass (lines : Lines) {before after : List Call} {call : Call}
      (arriving : lines.arriving = before ++ call :: after) :
      Shift lines { lines with passing := lines.passing ++ [call], arriving := before ++ after }
  | queue (lines : Lines) {before after : List Call} {call : Call}
      (passing : lines.passing = before ++ call :: after) :
      Shift lines { lines with queued := lines.queued ++ [call], passing := before ++ after }
  | begin (lines : Lines) (call : Call) (free : lines.current = [])
      (number : call.number = lines.calls.length) :
      Shift lines { lines with current := [call], calls := lines.calls ++ [call] }
  | finish (lines : Lines) {call : Call} (current : lines.current = [call])
      (own : call.own = true) :
      Shift lines { lines with front := lines.front ++ [call], current := [] }
  | work (lines : Lines) {call : Call} {rest : List Call} (queued : lines.queued = call :: rest)
      (free : lines.current = []) :
      Shift lines { lines with front := lines.front ++ [call], queued := rest }

variable {lines next : Lines}

/-! ## Every call once -/

/-- A call begins, or else the same calls stand in line. -/
theorem Shift.all_perm (shift : Shift lines next) :
    (next.calls = lines.calls ∧ next.all.Perm lines.all) ∨
      ∃ call : Call, call.number = lines.calls.length ∧ next.calls = lines.calls ++ [call] ∧
        next.all.Perm (lines.all ++ [call]) := by
  simp only [List.perm_iff_count, all]
  cases shift with
  | stay => exact .inl ⟨rfl, fun _ => rfl⟩
  | arrive call number | begin call free number =>
    refine .inr ⟨call, number, rfl, fun other => ?_⟩
    simp only [*, List.count_append, List.count_nil]
    omega
  | hold moved queued | pass moved | queue moved | finish moved own | work moved free =>
    refine .inl ⟨rfl, fun other => ?_⟩
    simp only [moved, List.count_append, List.count_cons, List.count_nil]
    omega

theorem Shift.counted (shift : Shift lines next) (counted : lines.Counted) : next.Counted := by
  rcases shift.all_perm with ⟨same, perm⟩ | ⟨call, number, more, perm⟩
  · refine ⟨?_, ?_⟩
    · rw [same]
      exact counted.numbers
    · rw [same]
      exact perm.trans counted.once
  · refine ⟨?_, ?_⟩
    · rw [more, List.map_append, counted.numbers, List.length_append, List.map_singleton, number]
      exact List.range_succ.symm
    · rw [more]
      exact perm.trans (counted.once.append_right [call])

theorem Counted.nodup (counted : lines.Counted) : lines.calls.Nodup := by
  have distinct : (lines.calls.map Call.number).Nodup := by
    rw [counted.numbers]
    exact List.nodup_range
  exact List.Nodup.of_map Call.number distinct

/-- A call that is about to begin is not yet in line. -/
theorem Counted.not_mem (counted : lines.Counted) {call : Call}
    (number : call.number = lines.calls.length) : call ∉ lines.all := by
  intro member
  have numbered : call.number ∈ lines.calls.map Call.number :=
    List.mem_map_of_mem (counted.once.mem_iff.mp member)
  rw [counted.numbers, number] at numbered
  exact Nat.lt_irrefl _ (List.mem_range.mp numbered)

theorem Counted.mem_of_others (counted : lines.Counted) {call : Call}
    (member : call ∈ lines.others) : call ∈ lines.calls := by
  have returned := (List.mem_filter.mp member).1
  refine counted.once.mem_iff.mp ?_
  rcases List.mem_append.mp returned with front | queued
  · simp [all, front]
  · simp [all, queued]

/-! ## Lists that grow at their ends -/

theorem Shift.front_grows (shift : Shift lines next) : lines.front <+: next.front := by
  cases shift with
  | hold | finish | work => exact List.prefix_append _ _
  | stay | arrive | pass | queue | begin => exact List.prefix_rfl

theorem Shift.others_grow (shift : Shift lines next) : lines.others <+: next.others := by
  unfold others returned
  cases shift with
  | stay | arrive | pass | begin => exact List.prefix_rfl
  | hold arriving queued =>
    simp only [queued, List.append_nil, List.filter_append]
    exact List.prefix_append _ _
  | queue passing =>
    simp only [List.filter_append, ← List.append_assoc]
    exact List.prefix_append _ _
  | finish current own => simp [own]
  | work queued free => simp [queued]

/-- Calls move on any number of times. -/
abbrev Shifts : Lines → Lines → Prop := Relation.ReflTransGen Shift

theorem Shifts.counted (shifts : Shifts lines next) (counted : lines.Counted) :
    next.Counted := by
  induction shifts with
  | refl => exact counted
  | tail _ shift ih => exact shift.counted ih

theorem Shifts.front_grows (shifts : Shifts lines next) : lines.front <+: next.front := by
  induction shifts with
  | refl => exact List.prefix_rfl
  | tail _ shift ih => exact ih.trans shift.front_grows

theorem Shifts.others_grow (shifts : Shifts lines next) : lines.others <+: next.others := by
  induction shifts with
  | refl => exact List.prefix_rfl
  | tail _ shift ih => exact ih.trans shift.others_grow

end Lines

/-- What a growing list held early comes before what it held later, as far as the list is seen. -/
theorem pair_sublist {early late seen : List Call} {first second : Call} (grows : early <+: late)
    (isPrefix : seen <+: late) (inEarly : first ∈ early) (notInEarly : second ∉ early)
    (inSeen : second ∈ seen) : [first, second].Sublist seen := by
  rcases List.prefix_or_prefix_of_prefix grows isPrefix with shorter | shorter
  · obtain ⟨rest, rfl⟩ := shorter
    have inRest := (List.mem_append.mp inSeen).resolve_left notInEarly
    exact (List.singleton_sublist.mpr inEarly).append (List.singleton_sublist.mpr inRest)
  · exact absurd (shorter.subset inSeen) notInEarly

end Inlay.Delivery
