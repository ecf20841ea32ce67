/-!
Places in a text as editors name them: a line and a column, both counted from zero, columns in
16-bit units. Positions are ordered by line, then by column.
-/

namespace Inlay

structure Position where
  line : Nat
  character : Nat
  deriving DecidableEq, Repr

namespace Position

instance : LE Position where
  le p q := p.line < q.line ∨ p.line = q.line ∧ p.character ≤ q.character

instance : LT Position where
  lt p q := p.line < q.line ∨ p.line = q.line ∧ p.character < q.character

instance (p q : Position) : Decidable (p ≤ q) :=
  inferInstanceAs (Decidable (p.line < q.line ∨ p.line = q.line ∧ p.character ≤ q.character))

instance (p q : Position) : Decidable (p < q) :=
  inferInstanceAs (Decidable (p.line < q.line ∨ p.line = q.line ∧ p.character < q.character))

theorem le_def {p q : Position} :
    p ≤ q ↔ p.line < q.line ∨ p.line = q.line ∧ p.character ≤ q.character := Iff.rfl

theorem lt_def {p q : Position} :
    p < q ↔ p.line < q.line ∨ p.line = q.line ∧ p.character < q.character := Iff.rfl

theorem le_refl (p : Position) : p ≤ p := by simp [le_def]

/-- The later of two positions. -/
def latest (p q : Position) : Position := if p < q then q else p

theorem le_latest_left (p q : Position) : p ≤ latest p q := by
  unfold latest
  split
  · next h => simp only [le_def, lt_def] at *; omega
  · exact le_refl p

/-- Where a text with the given end leads when it starts at `p` instead of at the origin. -/
def after (p extent : Position) : Position :=
  if extent.line = 0 then ⟨p.line, p.character + extent.character⟩
  else ⟨p.line + extent.line, extent.character⟩

/-- The text of a position in messages. -/
def text (p : Position) : String :=
  "line=" ++ toString p.line ++ " character=" ++ toString p.character

end Position

end Inlay
