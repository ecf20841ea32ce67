/-!
Character classes given as closed ranges of code points.
-/

namespace Inlay.Text

/-- Whether the character's code point lies in one of the closed ranges. -/
def within (ranges : List (Nat × Nat)) (c : Char) : Bool :=
  ranges.any fun (low, high) => low ≤ c.toNat && c.toNat ≤ high

end Inlay.Text
