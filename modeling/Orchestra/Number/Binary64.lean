/-!
# Orchestra.Number.Binary64 — binary floating-point numbers by their exact value

A finite number is kept as `± mantissa · 2 ^ exponent`, so every question about it (order, rounding, the shortest
text) is answered in whole numbers.  `ofRatio` is the one rounding into the format.
-/

namespace Orchestra

/-- The quotient rounded to the nearest whole number, a half to the even neighbour. -/
def roundDiv (num den : Nat) : Nat :=
  let q := num / den
  let r := num % den
  if 2 * r < den then q
  else if den < 2 * r then q + 1
  else if q % 2 = 0 then q else q + 1

/-- A number of the 64-bit binary format. -/
inductive Binary64 where
  | finite (negative : Bool) (mantissa : Nat) (exponent : Int)
  | infinite (negative : Bool)
  | nan
  deriving DecidableEq, Repr, Inhabited

namespace Binary64

/-! ### Rounding into the format -/

def leastExponent : Int := -1074

def greatestExponent : Int := 971

/-- The least mantissa of a number that is not subnormal. -/
def hidden : Nat := Nat.pow 2 52

def zero : Binary64 := finite false 0 leastExponent

/-- `± num / den` rounded to the format, a half to the even mantissa; too large a quotient is infinite. -/
def ofRatio (negative : Bool) (num den : Nat) : Binary64 :=
  if num = 0 ∨ den = 0 then finite negative 0 leastExponent
  else
    let divided (e : Int) : Nat × Nat := (num * Nat.pow 2 (-e).toNat, den * Nat.pow 2 e.toNat)
    let low : Int := (Nat.log2 num : Int) - Nat.log2 den - 53
    let fits (e : Int) : Bool := (divided e).1 / (divided e).2 < 2 * hidden
    let e := max leastExponent (if fits low then low else low + 1)
    let m := roundDiv (divided e).1 (divided e).2
    let (m, e) := if m = 2 * hidden then (hidden, e + 1) else (m, e)
    if greatestExponent < e then infinite negative else finite negative m e

/-- Decimal exponents past this are decided without writing the power out. -/
def decimalHorizon : Nat := 400

/-- `± digits · 10 ^ exponent` rounded to the format. -/
def ofDecimal (negative : Bool) (digits : Nat) (exponent : Int) : Binary64 :=
  let places : Int := exponent + (Nat.toDigits 10 digits).length
  if digits = 0 ∨ places < -(decimalHorizon : Int) then ofRatio negative 0 1
  else if (decimalHorizon : Int) < places then infinite negative
  else ofRatio negative (digits * Nat.pow 10 exponent.toNat) (Nat.pow 10 (-exponent).toNat)

/-! ### Value and order -/

/-- The exact value of a finite number. -/
def value? : Binary64 → Option Rat
  | finite negative m e => some ((if negative then -1 else 1) * (m : Rat) * (2 : Rat) ^ e)
  | _ => none

/-- Equality of numbers: the zeros are equal, and `nan` equals nothing. -/
def same : Binary64 → Binary64 → Bool
  | nan, _ => false
  | _, nan => false
  | infinite a, infinite b => a == b
  | x, y => x.value? == y.value? && x.value?.isSome

/-- The whole part, toward zero; only finite numbers have one. -/
def truncate? : Binary64 → Option Int
  | finite negative m e =>
    let magnitude : Nat := m * Nat.pow 2 e.toNat / Nat.pow 2 (-e).toNat
    some (if negative then -(magnitude : Int) else magnitude)
  | _ => none

def isZero : Binary64 → Bool
  | finite _ m _ => m == 0
  | _ => false

end Binary64

end Orchestra
