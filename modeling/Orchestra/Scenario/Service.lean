import Orchestra.Scenario.Dispatch

/-!
# Orchestra.Scenario.Service — a service driven step by step

Each step is answered once everything that it set off at its tick has happened.  A step that waits for something that
never comes ends the scenario.
-/

namespace Orchestra.Scenario.Service

inductive Step where
  /-- An operation whose outcome is waited for. -/
  | call (order : World.Order) (token : Token)
  /-- An operation in the background, under a name. -/
  | start (name : String) (order : World.Order) (token : Token)
  | join (name : String)
  | abort (name : String)
  | sleep (ticks : Nat)
  | cancel (source : String)
  | register (provider : Nat) (name : String) (kinds : Except Fault (Option (List Capability)))
  /-- The provider is made ready first. -/
  | add (provider : Nat) (name : String) (kinds : Except Fault (Option (List Capability)))
  | dispose (name : String)
  | onDispose (name : String)
  | providers (kind : Capability)
  | disposeBridge (provider : Nat)
  | listen (stream : Stream) (name : String) (reaction : Option Reaction)
  | unlisten (name : String)
  | setContext (extras : Extras) (fields : Changes)
  | getContext
  | clearContext
  | history
  | metrics
  | close
  /-- A step that could not be read. -/
  | faulty (f : Fault)

inductive Reply where
  | done
  | fault (f : Fault)
  | outcome (o : Except Fault Answer) (reachedAt : Tick)
  | kinds (ks : List Capability)
  | missing
  | providers (ids : List String) (enabled : Bool) (kinds : List Capability)
  | context (c : Context)
  | history (cs : List Context)
  | metrics (m : Metrics) (policy : Policy)
  | mounted (cleanup : Bool) (capabilities : List String)

/-- The reply to a step, what was seen since the one before, and when. -/
structure Answer where
  reply : Reply
  journal : List Entry
  tick : Tick

/-- A world with the names that steps use. -/
structure Session where
  world : World
  tasks : List (String × Nat) := []
  handles : List (String × Nat) := []

namespace Session

def reach (s : Session) (op : Nat) : Session × Option Reply :=
  let (world, came) := s.world.waitFor fun w => (w.outcome? op).isSome
  let s := { s with world }
  if !came then (s, none)
  else
    match world.outcome? op with
    | some (outcome, tick) => (s, some (.outcome outcome tick))
    | none => (s, none)

def register (s : Session) (index : Nat) (name : String) (kinds : Except Fault (Option (List Capability))) :
    Session × Option Reply :=
  match kinds, s.world.providerRef index with
  | .error f, _ => (s, some (.fault f))
  | _, none => (s, some .missing)
  | .ok kinds, some p =>
    match s.world.register p kinds with
    | .error f => (s, some (.fault f))
    | .ok (world, handle) =>
      ({ s with world, handles := (name, handle) :: s.handles },
        some (.kinds ((world.service.ledger.registrations[handle]?).elim [] (·.kinds))))

/-- One step; without a reply it waits for what never comes. -/
def step (s : Session) : Step → Session × Option Reply
  | .call order token =>
    let (world, op) := s.world.begin order token
    { s with world }.reach op
  | .start name order token =>
    let (world, op) := s.world.begin order token
    ({ s with world, tasks := (name, op) :: s.tasks }, some .done)
  | .join name =>
    match s.tasks.lookup name with
    | none => (s, some .missing)
    | some op => s.reach op
  | .abort name =>
    match s.tasks.lookup name with
    | none => (s, some .missing)
    | some op => ({ s with world := s.world.abort op }, some .done)
  | .sleep ticks =>
    let (world, came) := s.world.sleep ticks
    ({ s with world }, if came then some .done else none)
  | .cancel source => ({ s with world := s.world.doDeed (.cancel source) }, some .done)
  | .register index name kinds => s.register index name kinds
  | .add index name kinds =>
    let (clock, task) := s.world.clock.spawn .none (.prepare index)
    let (world, came) := { s.world with clock }.waitFor fun w => (w.clock.ending? task).isSome
    let s := { s with world }
    match came, world.clock.ending? task with
    | true, some (.error f) => (s, some (.fault f))
    | true, some (.ok _) => s.register index name kinds
    | _, _ => (s, none)
  | .dispose name =>
    match s.handles.lookup name with
    | none => (s, some .missing)
    | some handle =>
      let (world, f) := s.world.dispose handle
      ({ s with world }, some ((f.map .fault).getD .done))
  | .onDispose name =>
    match s.handles.lookup name with
    | none => (s, some .missing)
    | some handle => ({ s with world := s.world.onDispose handle .fail }, some .done)
  | .providers kind =>
    let r := s.world.service.ledger.registry
    (s, some (.providers ((r.providersFor kind).map (·.id)) r.isEnabled r.kinds))
  | .disposeBridge index =>
    ({ s with world := { s.world with clock := (s.world.clock.disposeProvider index).1 } }, some .done)
  | .listen stream name reaction => ({ s with world := s.world.listen stream name reaction }, some .done)
  | .unlisten name => ({ s with world := s.world.unlisten name }, some .done)
  | .setContext extras fields =>
    match s.world.setContext extras fields with
    | .error f => (s, some (.fault f))
    | .ok (world, context) => ({ s with world }, some (.context context))
  | .getContext => (s, some (.context s.world.service.context.current))
  | .clearContext => ({ s with world := s.world.clearContext }, some .done)
  | .history => (s, some (.history s.world.service.context.history))
  | .metrics => (s, some (.metrics s.world.service.metrics s.world.service.config.policy))
  | .close =>
    let (world, f) := s.world.close
    ({ s with world }, some ((f.map .fault).getD .done))
  | .faulty f => (s, some (.fault f))

/-- The answers to the steps; the last one is without a reply if the scenario could not go on. -/
def run (s : Session) : List Step → List (Answer ⊕ List Entry) × Session
  | [] => ([], s)
  | step :: rest =>
    match s.step step with
    | (s, none) =>
      let (world, journal) := s.world.takeJournal
      ([.inr journal], { s with world })
    | (s, some reply) =>
      let (world, journal) := s.world.settle.takeJournal
      let (answers, last) := run { s with world } rest
      (.inl ⟨reply, journal, world.now⟩ :: answers, last)

end Session

/-! ### The coordinator -/

/-- What the coordinator gives when it is asked for the mounted models. -/
inductive Mounted where
  /-- Models by name, as bridges still to be registered. -/
  | models (bridges : List ModelBridge)
  /-- Anything that is not a mapping of models. -/
  | other
  /-- Going through the models fails after these. -/
  | breaks (after : List ModelBridge)

/-- The coordinator fails to give anything. -/
def Mounted.fails : Mounted := .breaks []

structure Coordinator where
  /-- None if there are no hooks at all. -/
  hooks : Option Hooks
  mounted : Mounted
  /-- Offering the service under its name fails. -/
  refuses : Bool
  /-- A service that was refused is kept under the name all the same. -/
  keeps : Bool := false

structure Setting where
  config : Object
  /-- Whether models are to be bridged cannot be read from the configuration. -/
  unclear : Bool := false
  coordinator : Option Coordinator
  providers : List Provider
  cancelled : List String
  resolver : Option (Orchestra.Reply Workspace)
  /-- Updates of the context before anything can be told to hooks. -/
  beforehand : List Changes
  mounts : Bool
  steps : List Step
  suffix : String → Nat → String
  /-- How results are prepared for the debug hook. -/
  display : Int → Result → Except Complaint Value := Display.result

/-- The name under which a mounted service is offered. -/
def capabilityName : String := "ai_core"

def hooksOf (c : Option Coordinator) : Option Hooks := c.bind (·.hooks)

/-- A world around a new service. -/
def Setting.world (s : Setting) : Except Fault World := do
  let config ← Config.ofObject s.config
  let service ← Orchestra.Service.new config (hooksOf s.coordinator)
  return {
    clock := { cancelled := s.cancelled.map (·, 0), providers := s.providers }
    service
    suffix := s.suffix
    display := s.display
    resolver := s.resolver }

/-- Registers every bridge that can be registered. -/
def bridgeAll (w : World) : List ModelBridge → World
  | [] => w
  | b :: rest =>
    let index := w.clock.providers.length
    let w := { w with clock := { w.clock with providers := w.clock.providers ++ [Provider.bridge b] } }
    match w.register ((Provider.bridge b).ref index) none with
    | .error _ => bridgeAll w rest
    | .ok (w, _) => bridgeAll w rest

/-- Mounting: the service, if it was offered to others, and whether it can be unmounted. -/
def mount (s : Setting) : Option World × Bool :=
  match s.world, s.coordinator with
  | .error _, _ | _, none => (none, false)
  | .ok w, some c =>
    if c.refuses then (if c.keeps then some w else none, false)
    else if s.unclear then (some w, false)
    else if !Config.bridges s.config then (some w, true)
    else
      match c.mounted with
      | .models bridges => (some (bridgeAll w bridges), true)
      | .other => (some w, true)
      | .breaks after => (some (bridgeAll w after), false)

/-- What the coordinator offers by name after mounting; the service takes the place of any other of its name. -/
def offers (before : List (String × World)) : Option World → List (String × World)
  | none => before
  | some w => (capabilityName, w) :: before.filter (·.1 != capabilityName)

/-- Updates the context where nobody can be told. -/
def updateBeforehand (w : World) (d : Changes) : World :=
  match w.commit .nothing d with
  | .error _ => w
  | .ok (w, _) => w

structure Report where
  answers : List (Answer ⊕ List Entry)
  records : List (String × ProviderRecord)

def run (s : Setting) : Except Fault Report :=
  if s.mounts then
    match mount s with
    | (none, cleanup) =>
      .ok ⟨[.inl ⟨.mounted cleanup ((offers [] none).map Prod.fst), [], 0⟩], s.providers.filterMap fun
        | .scripted p => some (p.key, p.record)
        | .bridge _ => none⟩
    | (some w, cleanup) =>
      let (answers, last) := Session.run { world := w } s.steps
      .ok ⟨.inl ⟨.mounted cleanup ((offers [] (some w)).map Prod.fst), [], 0⟩ :: answers, last.world.records⟩
  else do
    let w ← s.world
    let (answers, last) := Session.run { world := s.beforehand.foldl updateBeforehand w } s.steps
    return ⟨answers, last.world.records⟩

end Orchestra.Scenario.Service
