import Inlay.Edit

/-!
Hints: labels shown before and after a range of a text without being part of it.

Hints move along with edits. When the text is replaced as a whole, those whose range no longer
exists are dropped.
-/

namespace Inlay

open Inlay.Text

structure Hint where
  before : String
  after : String
  start : Position
  stop : Position
  warning : Bool
  ordered : start ≤ stop
  deriving Repr

namespace Hint

/-- Hints are equal if what they show and where are. -/
instance : DecidableEq Hint := fun first second =>
  decidable_of_iff
    (first.before = second.before ∧ first.after = second.after ∧ first.start = second.start ∧
      first.stop = second.stop ∧ first.warning = second.warning)
    (by cases first; cases second; simp)

def make (before after : String) (start stop : Position) (warning : Bool) :
    Except Misordered Hint :=
  if ordered : start ≤ stop then .ok ⟨before, after, start, stop, warning, ordered⟩
  else .error ⟨start, stop⟩

/-- What tells two hints of a file apart. -/
def identity (hint : Hint) : Position × Position × String × String :=
  (hint.start, hint.stop, hint.before, hint.after)

/-- The hint after an edit. -/
def remap (edit : Edit) (hint : Hint) : Hint :=
  let start := edit.remap hint.start
  { hint with
    start := start
    stop := Position.latest start (edit.remap hint.stop)
    ordered := Position.le_latest_left start (edit.remap hint.stop) }

def remapAll (edit : Edit) (hints : List Hint) : List Hint := hints.map (remap edit)

/-- Whether both ends of the hint are positions of the text. -/
def fits (text : String) (hint : Hint) : Bool :=
  decide (hint.stop ≤ endPosition text.toList) &&
    decide (clampPosition text.toList hint.start = hint.start) &&
    decide (clampPosition text.toList hint.stop = hint.stop)

/-- The hints that fit the text. -/
def clampAll (text : String) (hints : List Hint) : List Hint := hints.filter (fits text)

end Hint

end Inlay
