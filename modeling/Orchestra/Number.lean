import Orchestra.Number.Layout

/-!
# Orchestra.Number — whole numbers and binary ones side by side

A number given as a whole number stays one and is written without a point, unless it is too long to be written at all.
-/

namespace Orchestra

inductive Number where
  | int (n : Int)
  | real (x : Binary64)
  deriving DecidableEq, Repr, Inhabited

namespace Number

/-- The exact value; infinities and `nan` have none. -/
def value? : Number → Option Rat
  | int n => some n
  | real x => x.value?

/-- Equality by value across the two forms. -/
def same : Number → Number → Bool
  | real x, real y => x.same y
  | x, y => x.value? == y.value? && x.value?.isSome

def isZero : Number → Bool
  | int n => n == 0
  | real x => x.isZero

/-- A whole number of more digits than this is neither read nor written. -/
def digitLimit : Nat := 4300

/-- How the number stands in a sentence, if it is not too long to be written. -/
def shown? : Number → Option String
  | int n => if n.natAbs < Nat.pow 10 digitLimit then some (toString n) else none
  | real x => some x.plain

end Number

end Orchestra
