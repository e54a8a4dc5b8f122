/-!
# Orchestra.Emitter — who listens to a stream of events

Listeners are kept in the order in which they subscribed.  One may be there several times, and withdrawing it takes away
its first occurrence.  An event goes to everyone who listened when it was fired.
-/

namespace Orchestra

/-- The listeners of one stream of events. -/
structure Emitter (Listener : Type) where
  listeners : List Listener := []
  deriving Repr

namespace Emitter

variable {Listener : Type}

def subscribe (e : Emitter Listener) (l : Listener) : Emitter Listener := ⟨e.listeners ++ [l]⟩

/-- Withdraws the first listener equal to the given one. -/
def unsubscribe [BEq Listener] (e : Emitter Listener) (l : Listener) : Emitter Listener := ⟨e.listeners.erase l⟩

def size (e : Emitter Listener) : Nat := e.listeners.length

end Emitter

end Orchestra
