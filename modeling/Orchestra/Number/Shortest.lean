import Orchestra.Number.Binary64

/-!
# Orchestra.Number.Shortest — the fewest decimal digits that read back

For 1, 2, … 17 digits the two neighbours of the value on that decimal grid are tested against the interval of reals
that round to it (its ends included iff the mantissa is even).  The first grid with a hit wins, and of two hits the
nearer one.
-/

namespace Orchestra

/-- `digits · 10 ^ exponent`. -/
structure Decimal where
  digits : Nat
  exponent : Int
  deriving DecidableEq, Repr

namespace Decimal

def length (n : Nat) : Nat := (Nat.toDigits 10 n).length

/-- The same number without zeros at the end. -/
def trimmed (d : Decimal) : Decimal :=
  let rec strip : Nat → Nat → Int → Decimal
    | 0, n, e => ⟨n, e⟩
    | k + 1, n, e => if n ≠ 0 ∧ n % 10 = 0 then strip k (n / 10) (e + 1) else ⟨n, e⟩
  strip (length d.digits) d.digits d.exponent

end Decimal

/-- The reals that round to a number, in quarters of its last binary place: `low`, `mid` and `high` over `den`. -/
structure RoundingInterval where
  low : Nat
  mid : Nat
  high : Nat
  den : Nat
  closed : Bool

namespace RoundingInterval

/-- The interval of `m · 2 ^ e`; below a power of two the lower neighbour is half as far. -/
def of (m : Nat) (e : Int) : RoundingInterval :=
  let quarter : Int := e - 2
  let unit := Nat.pow 2 quarter.toNat
  let below := if m = Binary64.hidden ∧ Binary64.leastExponent < e then 1 else 2
  { low := (4 * m - below) * unit
    mid := 4 * m * unit
    high := (4 * m + 2) * unit
    den := Nat.pow 2 (-quarter).toNat
    closed := m % 2 = 0 }

/-- `c · 10 ^ k` as a numerator over the interval's own denominator, with the factor for the interval's bounds. -/
def scaled (i : RoundingInterval) (c : Nat) (k : Int) : Nat × Nat :=
  (c * Nat.pow 10 k.toNat * i.den, Nat.pow 10 (-k).toNat)

/-- `c · 10 ^ k` rounds to the number. -/
def contains (i : RoundingInterval) (c : Nat) (k : Int) : Bool :=
  let (x, f) := i.scaled c k
  if i.closed then i.low * f ≤ x && x ≤ i.high * f else i.low * f < x && x < i.high * f

/-- The decimal exponent of the leading digit. -/
def magnitude (i : RoundingInterval) : Int :=
  if i.den ≤ i.mid then (Decimal.length (i.mid / i.den) : Int) - 1
  else
    let l := Decimal.length (i.den / i.mid)
    if i.den ≤ i.mid * Nat.pow 10 (l - 1) then -((l : Int) - 1) else -(l : Int)

/-- The neighbour of the value with `n` digits that rounds to it, if there is one. -/
def neighbour? (i : RoundingInterval) (n : Nat) : Option Decimal :=
  let k : Int := i.magnitude - n + 1
  let floor := i.mid * Nat.pow 10 (-k).toNat / (i.den * Nat.pow 10 k.toNat)
  let twice := 2 * (i.mid * Nat.pow 10 (-k).toNat)
  let middle := (2 * floor + 1) * (i.den * Nat.pow 10 k.toNat)
  match i.contains floor k, i.contains (floor + 1) k with
  | true, false => some ⟨floor, k⟩
  | false, true => some ⟨floor + 1, k⟩
  | false, false => none
  | true, true =>
    if twice < middle ∨ (twice = middle ∧ floor % 2 = 0) then some ⟨floor, k⟩ else some ⟨floor + 1, k⟩

end RoundingInterval

/-- The shortest decimal that rounds to `m · 2 ^ e`; seventeen digits always suffice. -/
def shortest (m : Nat) (e : Int) : Decimal :=
  if m = 0 then ⟨0, 0⟩
  else
    let i := RoundingInterval.of m e
    (((List.range 17).findSome? fun n => i.neighbour? (n + 1)).getD ⟨0, 0⟩).trimmed

end Orchestra
