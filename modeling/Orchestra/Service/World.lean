import Orchestra.Service.Operation
import Orchestra.Service.State
import Orchestra.Service.Telling

/-!
# Orchestra.Service.World — a service among its providers

The world is the service, the tasks on the clock, the hooks that are being told, and the operations on their way.  Here
hooks and listeners are told, and may react; the context is updated; and registrations are made and disposed of.
-/

namespace Orchestra

/-- What is to happen from outside at some tick. -/
inductive Deed where
  | cancel (source : String)
  /-- Disposes of the last registration of a provider. -/
  | dispose (provider : Nat)
  | register (provider : Nat)
  deriving DecidableEq, Repr

structure World where
  clock : Clockwork
  service : Service
  operations : List Operation := []
  /-- The hooks that are being told. -/
  tellings : List Telling := []
  /-- How many tellings there were. -/
  told : Nat := 0
  assistantIds : RequestIds := .assistant
  /-- The random part of an id, by source and count. -/
  suffix : String → Nat → String
  /-- How a result is prepared for display, its texts cut after so many characters; this may fail. -/
  display : Int → Result → Except Complaint Value
  /-- How the workspace is looked up, if it can be. -/
  resolver : Option (Reply Workspace) := none
  listeners : Nat := 0
  /-- How to withdraw subscriptions, by name. -/
  subscriptions : List (String × Stream × Listener) := []
  agenda : List (Tick × Deed) := []
  /-- Every event that was fired, in order. -/
  published : List BusEvent := []

namespace World

def now (w : World) : Tick := w.clock.now

def log (w : World) (e : Entry) : World := { w with clock := w.clock.log e }

def isCancelled (w : World) (t : Token) : Bool := w.clock.isCancelled t

def modifyOperation (w : World) (op : Nat) (f : Operation → Operation) : World :=
  { w with operations := w.operations.modify op f }

def setStage (w : World) (op : Nat) (stage : Stage) : World := w.modifyOperation op fun o => { o with stage }

def complete (w : World) (op : Nat) (outcome : Except Fault Answer) : World := w.setStage op (.done outcome w.now)

def outcome? (w : World) (op : Nat) : Option (Except Fault Answer × Tick) := (w.operations[op]?).bind (·.outcome?)

/-! ### Hooks -/

/-- Has a hook told in the background, if hooks are told anything. -/
def announce (w : World) (hook : Hook) : World :=
  match w.service.hooks with
  | none => w
  | some hooks =>
    { w with
      told := w.told + 1
      tellings := w.tellings ++ [⟨w.told, hook, true, false, w.now + hooks.delay w.told hook⟩] }

/-- Begins to tell a hook that an operation waits for. -/
def tell (w : World) (hook : Hook) (delay : Nat) : World × Nat :=
  ({ w.log (.hook hook) with
      told := w.told + 1
      tellings := w.tellings ++ [⟨w.told, hook, false, true, w.now + delay⟩] }, w.told)

/-- The hook is still being told. -/
def isTelling (w : World) (number : Nat) : Bool := w.tellings.any (·.number == number)

/-- Stops telling a hook. -/
def hush (w : World) (number : Nat) : World := { w with tellings := w.tellings.filter (·.number != number) }

/-- Gives every telling its turn. -/
def tellAll (w : World) : World :=
  { (w.tellings.flatMap (·.seen w.now)).foldl log w with tellings := w.tellings.filterMap (·.after? w.now) }

/-! ### Listeners -/

/-- Subscribes a new listener and keeps how to withdraw it under its name. -/
def listen (w : World) (stream : Stream) (name : String) (reaction : Option Reaction) : World :=
  let l : Listener := ⟨w.listeners, name, reaction⟩
  { w with
    listeners := w.listeners + 1
    service := { w.service with bus := w.service.bus.modify stream (·.subscribe l) }
    subscriptions := (name, stream, l) :: w.subscriptions.filter (·.1 != name) }

/-- Withdraws the subscription of that name; again, or of an unknown name, it does nothing. -/
def unlisten (w : World) (name : String) : World :=
  match w.subscriptions.lookup name with
  | none => w
  | some (stream, l) =>
    { w with service := { w.service with bus := w.service.bus.modify stream (·.unsubscribe l) } }

/-- Commits an update of the context; nobody is told yet. -/
def commit (w : World) (extras : Extras) (fields : Changes) : Except Fault (World × ContextUpdate) := do
  let (context, update) ← w.service.context.set extras fields
  return ({ w with service := { w.service with context } }, update)

/-- Events that listeners cause while they are told of others are delivered down to this depth. -/
def nestingLimit : Nat := 200

/-- Publishes an event: tells everyone who listens now, in order of subscription.  Reactions take effect at once, and no
reaction keeps an event from the listeners after it. -/
def deliver : Nat → World → BusEvent → World
  | 0, w, _ => w
  | depth + 1, w, e =>
    (w.service.bus.emitter e.stream).listeners.foldl (fun w l =>
      let w := w.log (.event l.name e)
      match l.reaction with
      | none | some .fail => w
      | some (.act another withdrawn language) =>
        let w := match another with
          | none => w
          | some (stream, name) => w.listen stream name none
        let w := match withdrawn with
          | none => w
          | some name => w.unlisten name
        match language with
        | none => w
        | some s =>
          match w.commit .nothing [.language (some s)] with
          | .error _ => w
          | .ok (w, update) => (deliver depth w (.context update)).announce (.contextChanged update))
      { w with published := w.published ++ [e] }

def fire (w : World) (e : BusEvent) : World := deliver nestingLimit w e

/-- Updates the context and tells listeners, then hooks. -/
def setContext (w : World) (extras : Extras) (fields : Changes) : Except Fault (World × Context) := do
  let (w, update) ← w.commit extras fields
  return ((w.fire (.context update)).announce (.contextChanged update), update.context)

def clearContext (w : World) : World :=
  { w with service := { w.service with context := w.service.context.clear } }

/-! ### Registrations -/

def providerRef (w : World) (index : Nat) : Option ProviderRef := (w.clock.providers[index]?).map (·.ref index)

/-- Registers a provider through the service, which keeps the handle. -/
def register (w : World) (p : ProviderRef) (kinds : Option (List Capability)) : Except Fault (World × Nat) := do
  let (ledger, handle) ← w.service.ledger.register p kinds
  return ({ w with service := { w.service with
    ledger := ledger.onDispose handle .forget, owned := w.service.owned ++ [handle] } }, handle)

def onDispose (w : World) (handle : Nat) (callback : ServiceCallback) : World :=
  { w with service := { w.service with ledger := w.service.ledger.onDispose handle callback } }

/-- Runs callbacks up to the first that fails. -/
def runCallbacks (w : World) (handle : Nat) : List ServiceCallback → World × Option Fault
  | [] => (w, none)
  | .forget :: rest =>
    { w with service := { w.service with owned := w.service.owned.erase handle } }.runCallbacks handle rest
  | .fail :: _ => (w, some (.outside .runtime "callback failed" false))

/-- Disposes of a registration: callbacks first; a failing one keeps the provider from being disposed of. -/
def dispose (w : World) (handle : Nat) : World × Option Fault :=
  let (ledger, disposal) := w.service.ledger.dispose handle
  let w := { w with service := { w.service with ledger } }
  match disposal with
  | none => (w, none)
  | some d =>
    match w.runCallbacks handle d.callbacks with
    | (w, some f) => (w, some f)
    | (w, none) =>
      if d.disposesProvider then
        let (clock, fault) := w.clock.disposeProvider d.provider.index
        ({ w with clock }, fault)
      else (w, none)

/-- Disposes of registrations in order, whatever fails; only a cancelled task leaves the rest of them. -/
def disposeAll (w : World) : List Nat → World × Option Fault
  | [] => (w, none)
  | handle :: rest =>
    match w.dispose handle with
    | (w, some .interrupted) => (w, some .interrupted)
    | (w, _) => w.disposeAll rest

/-- Disposes of every registration that the service made, and stops telling hooks in the background. -/
def close (w : World) : World × Option Fault :=
  match w.disposeAll w.service.owned with
  | (w, some f) => (w, some f)
  | (w, none) =>
    ({ w with
        tellings := w.tellings.filter (!·.background)
        service := { w.service with owned := [] } }, none)

end World

end Orchestra
