import Orchestra.Context

/-!
# Orchestra.Context.Store — the current context and its bounded history

`set` overlays changes on the current context and keeps the context before it; the history holds the last `limit` of
those, oldest first.  A refused update leaves the store as it was.  `clear` forgets everything.
-/

namespace Orchestra

/-- What an update is given besides single fields. -/
inductive Extras where
  | nothing
  | changes (d : Changes)
  | context (c : Context)
  deriving Repr, Inhabited

namespace Extras

/-- The changes that the extras stand for: of a context, its set facets. -/
def toChanges : Extras → Changes
  | nothing => []
  | changes d => d
  | context c => c.facets

end Extras

/-- What observers are told after an update. -/
structure ContextUpdate where
  context : Context
  changes : Changes
  deriving Repr, Inhabited

structure ContextStore where
  limit : Nat
  limit_pos : 0 < limit
  current : Context
  history : List Context
  deriving Repr

namespace ContextStore

def defaultLimit : Int := 10

/-- No history can be asked to hold this many contexts. -/
def capacity : Nat := Nat.pow 2 63

def new (limit : Int) : Except Fault ContextStore :=
  if h : 1 ≤ limit then .ok ⟨limit.toNat, by omega, Context.empty, []⟩ else .error (.historyLimit limit)

/-- The last `n` elements. -/
def lastOnes {α : Type} (n : Nat) (xs : List α) : List α := xs.drop (xs.length - n)

/-- The fields win over the extras. -/
def delta (extras : Extras) (fields : Changes) : Changes := Changes.update extras.toChanges fields

/-- The store after an update, with what observers are to be told. -/
def set (s : ContextStore) (extras : Extras) (fields : Changes) : Except Fault (ContextStore × ContextUpdate) := do
  let d := delta extras fields
  let next ← s.current.overlay d
  if capacity ≤ s.limit then throw .historyTooLong
  return ({ s with current := next, history := lastOnes s.limit (s.history ++ [s.current]) }, ⟨next, d⟩)

def clear (s : ContextStore) : ContextStore := { s with current := Context.empty, history := [] }

end ContextStore

end Orchestra
