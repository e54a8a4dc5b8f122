/-!
# Orchestra.RequestId — names for requests

An id carries a name for its source, the time, the source's own count and a random suffix.  The count alone tells the ids
of one source apart.
-/

namespace Orchestra

structure RequestId where
  source : String
  millis : Int
  count : Nat
  suffix : String
  deriving DecidableEq, Repr, Inhabited

namespace RequestId

def text (r : RequestId) : String :=
  r.source ++ "-" ++ toString r.millis ++ "-" ++ toString r.count ++ "-" ++ r.suffix

end RequestId

/-- Hands out ids of one source, counted from zero; the suffixes are given from outside. -/
structure RequestIds where
  source : String
  issued : Nat := 0
  deriving DecidableEq, Repr

namespace RequestIds

/-- The source of ids for requests to the service. -/
def service : RequestIds := ⟨"ai", 0⟩

/-- The source of ids for operations of the assistant. -/
def assistant : RequestIds := ⟨"assistant", 0⟩

def next (g : RequestIds) (millis : Int) (suffix : String) : RequestId × RequestIds :=
  (⟨g.source, millis, g.issued, suffix⟩, { g with issued := g.issued + 1 })

/-- One id for each reading of the clock, with its suffix. -/
def run (g : RequestIds) : List (Int × String) → List RequestId
  | [] => []
  | (millis, suffix) :: rest => (g.next millis suffix).1 :: run (g.next millis suffix).2 rest

end RequestIds

end Orchestra
