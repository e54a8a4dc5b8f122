import Orchestra.Simulation.Journal
import Orchestra.Simulation.Provider

/-!
# Orchestra.Scenario.Registry — registrations made and disposed of step by step

Handles are kept under names.  Callbacks of a handle note what they see, and may fail or dispose of their handle again.
-/

namespace Orchestra.Scenario.Registry

inductive Reaction where
  | none | fails | disposes
  deriving DecidableEq, Repr

structure Callback where
  name : String
  reaction : Reaction
  deriving DecidableEq, Repr

inductive Step where
  /-- Kinds that could not be read are a fault of the step. -/
  | register (provider : Nat) (name : String) (kinds : Except Fault (Option (List Capability)))
  | dispose (name : String)
  /-- Enters and leaves the registration as a scope. -/
  | scope (name : String)
  | onDispose (name : String) (callback : Callback)

inductive Reply where
  | kinds (ks : List Capability)
  | scope (disposed enabled : Bool)
  | missing
  | fault (f : Fault)
  | done
  deriving Repr

structure State where
  providers : List ScriptedProvider
  ledger : Ledger Callback := {}
  /-- The handles by name, in the order in which the names were first used. -/
  names : List (String × Nat) := []
  /-- What was seen, the last first. -/
  journal : List Entry := []

def put (names : List (String × Nat)) (name : String) (handle : Nat) : List (String × Nat) :=
  match names with
  | [] => [(name, handle)]
  | (n, h) :: rest => if n = name then (n, handle) :: rest else (n, h) :: put rest name handle

def State.log (s : State) (e : Entry) : State := { s with journal := e :: s.journal }

/-- Runs callbacks up to the first that fails.  The handle is disposed of already, so disposing of it again does
nothing. -/
def State.runCallbacks (s : State) (handle : Nat) : List Callback → State × Option Fault
  | [] => (s, none)
  | c :: rest =>
    let s := s.log (.callback c.name (s.ledger.isDisposed handle) s.ledger.registry.kinds)
    match c.reaction with
    | .none => s.runCallbacks handle rest
    | .fails => (s, some (.outside .runtime (c.name ++ " failed") false))
    | .disposes => { s with ledger := (s.ledger.dispose handle).1 }.runCallbacks handle rest

def State.dispose (s : State) (handle : Nat) : State × Option Fault :=
  match s.ledger.dispose handle with
  | (ledger, none) => ({ s with ledger }, none)
  | (ledger, some d) =>
    match { s with ledger }.runCallbacks handle d.callbacks with
    | (s, some f) => (s, some f)
    | (s, none) =>
      match d.disposesProvider, s.providers[d.provider.index]? with
      | true, some p => (s.log (.dispose p.key), p.disposeFault)
      | _, _ => (s, none)

def Reply.ofFault (f : Option Fault) (otherwise : Reply) : Reply := (f.map .fault).getD otherwise

def State.step (s : State) : Step → State × Reply
  | .register _ _ (.error f) => (s, .fault f)
  | .register index name (.ok kinds) =>
    match s.providers[index]? with
    | none => (s, .missing)
    | some p =>
      match s.ledger.register ((Provider.scripted p).ref index) kinds with
      | .error f => (s, .fault f)
      | .ok (ledger, handle) =>
        ({ s with ledger, names := put s.names name handle },
          .kinds ((ledger.registrations[handle]?).elim [] (·.kinds)))
  | .dispose name =>
    match s.names.lookup name with
    | none => (s, .missing)
    | some handle =>
      let (s, f) := s.dispose handle
      (s, .ofFault f .done)
  | .scope name =>
    match s.names.lookup name with
    | none => (s, .missing)
    | some handle =>
      let inside := Reply.scope (s.ledger.isDisposed handle) s.ledger.registry.isEnabled
      let (s, f) := s.dispose handle
      (s, .ofFault f inside)
  | .onDispose name callback =>
    match s.names.lookup name with
    | none => (s, .missing)
    | some handle => ({ s with ledger := s.ledger.onDispose handle callback }, .done)

structure Answer where
  reply : Reply
  journal : List Entry
  enabled : Bool
  size : Nat
  lists : List (Capability × List String)
  disposed : List (String × Bool)

def State.keys (s : State) (refs : List ProviderRef) : List String :=
  refs.filterMap fun r => (s.providers[r.index]?).map (·.key)

def State.answer (s : State) (reply : Reply) : Answer where
  reply
  journal := s.journal.reverse
  enabled := s.ledger.registry.isEnabled
  size := s.ledger.registry.size
  lists := s.ledger.registry.kinds.map fun k => (k, s.keys (s.ledger.registry.providersFor k))
  disposed := s.names.map fun (name, handle) => (name, s.ledger.isDisposed handle)

/-- The answers, and the keys of the providers that explain at the end. -/
def State.run (s : State) : List Step → List Answer × List String
  | [] => ([], s.keys (s.ledger.registry.providersFor .explanation))
  | step :: rest =>
    let (s, reply) := { s with journal := [] }.step step
    let (answers, explaining) := s.run rest
    (s.answer reply :: answers, explaining)

end Orchestra.Scenario.Registry
