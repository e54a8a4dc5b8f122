import Orchestra.Fault

/-!
# Orchestra.Cancellation — the owner's and the reader's side of a cancellation signal

A source tells its callbacks once; a callback that comes later is due at once.  A token reads one source, or none at all.
-/

namespace Orchestra

/-- The owner's side. -/
structure CancellationSource (Callback : Type) where
  cancelled : Bool := false
  callbacks : List Callback := []
  deriving Repr

namespace CancellationSource

variable {Callback : Type}

/-- The source after its cancellation, and the callbacks that are due then. -/
def cancel (s : CancellationSource Callback) : CancellationSource Callback × List Callback :=
  if s.cancelled then (s, []) else (⟨true, []⟩, s.callbacks)

/-- The source with a further callback, or the callback itself if it is due at once. -/
def onCancelled (s : CancellationSource Callback) (c : Callback) : CancellationSource Callback × Option Callback :=
  if s.cancelled then (s, some c) else ({ s with callbacks := s.callbacks ++ [c] }, none)

/-- Withdraws the first callback equal to the given one. -/
def remove [BEq Callback] (s : CancellationSource Callback) (c : Callback) : CancellationSource Callback :=
  { s with callbacks := s.callbacks.erase c }

end CancellationSource

/-- The reader's side: no source, or one by name. -/
inductive Token where
  | none
  | source (name : String)
  deriving DecidableEq, Repr, Inhabited

namespace Token

def canBeCancelled : Token → Bool
  | none => false
  | source _ => true

/-- The token's source is among the cancelled ones. -/
def isCancelled (cancelled : List String) : Token → Bool
  | none => false
  | source name => cancelled.contains name

/-- Refuses to go on once the token is cancelled. -/
def check (cancelled : List String) (t : Token) (operation : Option String) : Except Fault Unit :=
  if t.isCancelled cancelled then .error (.cancelled operation Option.none) else .ok ()

end Token

end Orchestra
