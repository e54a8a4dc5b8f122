import Orchestra.Cancellation
import Orchestra.Emitter

/-!
# Orchestra.Scenario.Emitter — callbacks on an emitter or a cancellation source

Callbacks are known by name and may themselves act on what called them.  Whoever fires or cancels never sees a callback
fail; only a callback that is due at once, because its source is cancelled already, fails into its registration.
-/

namespace Orchestra.Scenario.Emitter

/-- What callbacks are registered on. -/
inductive Ground where
  | emitter (e : Orchestra.Emitter String)
  | source (s : CancellationSource String)
  /-- A token without a source. -/
  | noSource
  deriving Repr

/-- What a step or a callback does, in the order of the fields, as far as given. -/
structure Action where
  /-- Registers the callback of that name. -/
  add : Option String := none
  /-- The name under which the way to withdraw it is kept. -/
  name : String := ""
  remove : Option String := none
  fire : Option Value := none
  cancel : Bool := false
  check : Option (Option String) := none
  deriving Repr

inductive Callback where
  | silent
  | fails (c : Complaint)
  | acts (a : Action)

/-- A call of a callback, with the event if there is one. -/
structure Call where
  callback : String
  event : Option Value
  deriving Repr

structure State where
  ground : Ground
  callbacks : List (String × Callback)
  /-- Which callback each kept name withdraws. -/
  kept : List (String × String) := []
  /-- The calls so far, the last first. -/
  calls : List Call := []

/-- Actions nested deeper than this fail. -/
def nestingLimit : Nat := 200

def State.keep (s : State) (name callback : String) : State :=
  { s with kept := (name, callback) :: s.kept.filter (·.1 != name) }

def State.remove (s : State) (name : String) : State :=
  match s.kept.lookup name with
  | none => s
  | some callback =>
    match s.ground with
    | .emitter e => { s with ground := .emitter (e.unsubscribe callback) }
    | .source c => { s with ground := .source (c.remove callback) }
    | .noSource => s

def State.isCancelled (s : State) : Bool :=
  match s.ground with
  | .source c => c.cancelled
  | _ => false

def State.check (s : State) (operation : Option String) : Option Fault :=
  if s.isCancelled then some (.cancelled operation none) else none

/-- Calls a callback, given how it acts. -/
def State.call (act : State → Action → State × Option Fault) (s : State) (name : String) (event : Option Value) :
    State × Option Fault :=
  let s := { s with calls := ⟨name, event⟩ :: s.calls }
  match s.callbacks.lookup name with
  | some (.fails c) => (s, some c.fault)
  | some (.acts a) => act s a
  | _ => (s, none)

/-- Calls each callback in turn, whatever fails. -/
def State.callAll (act : State → Action → State × Option Fault) (event : Option Value) (names : List String)
    (s : State) : State :=
  names.foldl (fun s name => (s.call act name event).1) s

/-- Registers a callback; one that is due at once and fails is not kept. -/
def State.add (act : State → Action → State × Option Fault) (s : State) (callback name : String) :
    State × Option Fault :=
  match s.ground with
  | .emitter e => ({ s with ground := .emitter (e.subscribe callback) }.keep name callback, none)
  | .noSource => (s.keep name callback, none)
  | .source c =>
    match c.onCancelled callback with
    | (c, none) => ({ s with ground := .source c }.keep name callback, none)
    | (_, some due) =>
      match s.call act due none with
      | (s, none) => (s.keep name callback, none)
      | failed => failed

def State.act : Nat → State → Action → State × Option Fault
  | 0, s, _ => (s, some (.outside .runtime "nested too deeply" false))
  | depth + 1, s, a =>
    let (s, fault) := match a.add with
      | none => (s, none)
      | some callback => s.add (State.act depth) callback a.name
    match fault with
    | some f => (s, some f)
    | none =>
      let s := match a.remove with
        | none => s
        | some name => s.remove name
      let s := match a.fire, s.ground with
        | some event, .emitter e => s.callAll (State.act depth) (some event) e.listeners
        | _, _ => s
      let s := match a.cancel, s.ground with
        | true, .source c =>
          let (c, due) := c.cancel
          { s with ground := .source c }.callAll (State.act depth) none due
        | _, _ => s
      match a.check with
      | none => (s, none)
      | some operation => (s, s.check operation)

/-- What can be asked of the ground after a step. -/
inductive View where
  | size (n : Nat)
  | token (cancelled canBeCancelled : Bool)
  deriving Repr

def State.view (s : State) : View :=
  match s.ground with
  | .emitter e => .size e.size
  | .source c => .token c.cancelled true
  | .noSource => .token false false

structure Answer where
  fault : Option Fault
  calls : List Call
  view : View
  deriving Repr

def State.run (s : State) : List Action → List Answer
  | [] => []
  | a :: rest =>
    let (s, fault) := { s with calls := [] }.act nestingLimit a
    ⟨fault, s.calls.reverse, s.view⟩ :: s.run rest

end Orchestra.Scenario.Emitter
