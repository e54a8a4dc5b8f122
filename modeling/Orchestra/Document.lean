/-!
# Orchestra.Document — positions and ranges in a document

Positions are ordered by line, then by column.  Nothing bounds the numbers.
-/

namespace Orchestra

structure Position where
  line : Int
  column : Int
  deriving DecidableEq, Repr, Inhabited

namespace Position

instance : LT Position := ⟨fun p q => p.line < q.line ∨ p.line = q.line ∧ p.column < q.column⟩

instance : LE Position := ⟨fun p q => p.line < q.line ∨ p.line = q.line ∧ p.column ≤ q.column⟩

instance (p q : Position) : Decidable (p < q) :=
  inferInstanceAs (Decidable (p.line < q.line ∨ p.line = q.line ∧ p.column < q.column))

instance (p q : Position) : Decidable (p ≤ q) :=
  inferInstanceAs (Decidable (p.line < q.line ∨ p.line = q.line ∧ p.column ≤ q.column))

end Position

/-- The part of a document from `start` up to, and without, `stop`. -/
structure Range where
  start : Position
  stop : Position
  deriving DecidableEq, Repr, Inhabited

namespace Range

/-- The empty range at a position. -/
def point (line column : Int) : Range := ⟨⟨line, column⟩, ⟨line, column⟩⟩

def isEmpty (r : Range) : Bool := r.start == r.stop

end Range

end Orchestra
