import Orchestra.Number.Shortest

/-!
# Orchestra.Number.Layout — numbers as text

`Binary64.plain` is how a number stands in a sentence (shortest digits, positional from `10 ^ -4` up to `10 ^ 16`);
`Binary64.fixed` writes a given count of places.
-/

namespace Orchestra.Binary64

def zeros (n : Nat) : String := String.ofList (List.replicate n '0')

def signed (negative : Bool) (text : String) : String := if negative then "-" ++ text else text

/-- Where positional writing begins and ends, by the place of the decimal point before or after the digits. -/
structure Layout where
  least : Int
  greatest : Int

/-- A number is written positionally from `0.0001` up to sixteen whole digits. -/
def sentence : Layout := ⟨-4, 16⟩

/-- The exponent with its sign and at least two digits. -/
def exponentText (e : Int) : String :=
  let n := toString e.natAbs
  (if e < 0 then "e-" else "e+") ++ (if n.length < 2 then "0" ++ n else n)

/-- A decimal in the given layout; a whole number keeps one place. -/
def Layout.write (l : Layout) (d : Decimal) : String :=
  let ds := Nat.toDigits 10 d.digits
  let point : Int := ds.length + d.exponent
  if d.digits = 0 then "0.0"
  else if l.least < point ∧ point ≤ l.greatest then
    if point ≤ 0 then "0." ++ zeros (-point).toNat ++ String.ofList ds
    else if (ds.length : Int) ≤ point then String.ofList ds ++ zeros (point - ds.length).toNat ++ ".0"
    else String.ofList (ds.take point.toNat) ++ "." ++ String.ofList (ds.drop point.toNat)
  else
    let rest := if ds.length ≤ 1 then "" else "." ++ String.ofList (ds.drop 1)
    String.ofList (ds.take 1) ++ rest ++ exponentText (point - 1)

def plain : Binary64 → String
  | finite negative m e => signed negative (sentence.write (shortest m e))
  | infinite negative => signed negative "inf"
  | nan => "nan"

/-- The number with exactly `places` digits after the point, a half to the even neighbour. -/
def fixed (places : Nat) : Binary64 → String
  | finite negative m e =>
    let n := roundDiv (m * Nat.pow 2 e.toNat * Nat.pow 10 places) (Nat.pow 2 (-e).toNat)
    let fraction := toString (n % Nat.pow 10 places)
    let tail := if places = 0 then "" else "." ++ zeros (places - fraction.length) ++ fraction
    signed negative (toString (n / Nat.pow 10 places) ++ tail)
  | infinite negative => signed negative "inf"
  | nan => "nan"

end Orchestra.Binary64
