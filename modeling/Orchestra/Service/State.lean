import Orchestra.Config
import Orchestra.Emitter
import Orchestra.Event
import Orchestra.Registry

/-!
# Orchestra.Service.State — what a service keeps between requests

The providers and who registered them, the context, who listens, and the counts behind the metrics.
-/

namespace Orchestra

/-- What a listener does besides being told. -/
inductive Reaction where
  | fail
  /-- Subscribes another listener, withdraws one by name, and sets the language, as far as given. -/
  | act (listen : Option (Stream × String)) (unlisten : Option String) (language : Option String)
  deriving DecidableEq, Repr

/-- A listener; `number` is its identity. -/
structure Listener where
  number : Nat
  name : String
  reaction : Option Reaction := none
  deriving DecidableEq, Repr

/-- The listeners of the three streams. -/
structure Bus where
  response : Emitter Listener := {}
  error : Emitter Listener := {}
  context : Emitter Listener := {}

namespace Bus

def emitter (b : Bus) : Stream → Emitter Listener
  | .response => b.response
  | .error => b.error
  | .context => b.context

def modify (b : Bus) (s : Stream) (f : Emitter Listener → Emitter Listener) : Bus :=
  match s with
  | .response => { b with response := f b.response }
  | .error => { b with error := f b.error }
  | .context => { b with context := f b.context }

end Bus

/-- What runs when a registration made through the service is disposed of. -/
inductive ServiceCallback where
  /-- The service strikes the registration off its own list. -/
  | forget
  | fail
  deriving DecidableEq, Repr

structure Metrics where
  requests : Nat
  errors : Nat
  meanMillis : Binary64
  providers : Nat
  deriving Repr

/-- How many ticks it takes to tell a hook, by how many were told before that took time, and by what it is told. -/
def Delays := Nat → Hook → Nat

namespace Delays

/-- Every hook takes as long. -/
def always (ticks : Nat) : Delays := fun _ _ => ticks

instance : Coe Nat Delays := ⟨always⟩

instance (ticks : Nat) : OfNat Delays ticks := ⟨always ticks⟩

end Delays

/-- The coordinator's hooks: how long telling them takes, and what it raises, by how many were told before that took
time. -/
structure Hooks where
  delay : Delays := 0
  raises : Nat → Option Complaint := fun _ => none

namespace Hooks

/-- How telling a hook ends. -/
def ending (h : Hooks) (number : Nat) : Except Fault Unit := (h.raises number).elim (.ok ()) (.error ·.fault)

/-- Whoever has a hook told goes on after it: an exception is caught, and only a cancelled task goes no further. -/
def goesOn (h : Hooks) (number : Nat) : Bool :=
  match h.ending number with
  | .error .interrupted => false
  | _ => true

end Hooks

structure Service where
  config : Config
  /-- None if nothing is told to hooks. -/
  hooks : Option Hooks
  ledger : Ledger ServiceCallback := {}
  /-- The registrations made through the service and not yet disposed of. -/
  owned : List Nat := []
  bus : Bus := {}
  context : ContextStore
  ids : RequestIds := .service
  requests : Nat := 0
  errors : Nat := 0
  successes : Nat := 0
  /-- The durations of all successful requests together. -/
  busy : Nat := 0

namespace Service

/-- A service with the given settings; hooks that the settings or the coordinator do not want are never told. -/
def new (config : Config) (hooks : Option Hooks) : Except Fault Service := do
  let context ← ContextStore.new config.historyLimit
  return { config, hooks := if config.forwards then hooks else none, context }

def metrics (s : Service) : Metrics :=
  ⟨s.requests, s.errors, Time.meanMillis s.busy s.successes, s.ledger.registry.size⟩

end Service

end Orchestra
