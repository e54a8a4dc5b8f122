/-!
# Orchestra.Text.Boundaries — character classes given by the code points where they change

A class is a list of code points in ascending order: membership starts off false and flips at each of them.
-/

namespace Orchestra.Text

/-- Membership after an odd number of changes. -/
def flips (boundaries : List Nat) (c : Char) : Bool := boundaries.countP (· ≤ c.toNat) % 2 == 1

end Orchestra.Text
