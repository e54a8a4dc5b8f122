import Orchestra.Scenario.Display
import Orchestra.Service.Progress

/-!
# Orchestra.Scenario.Dispatch — one fan-out on its own

The fan-out begins at tick zero among registered providers; deeds on the agenda happen meanwhile, and providers that are
no longer waited for are watched for some ticks more.
-/

namespace Orchestra

namespace World

/-- The journal since it was last taken, in order, and the world with an empty one. -/
def takeJournal (w : World) : World × List Entry :=
  ({ w with clock := { w.clock with journal := [] } }, w.clock.journal.reverse)

/-- The records of the scripted providers, by key. -/
def records (w : World) : List (String × ProviderRecord) :=
  w.clock.providers.filterMap fun
    | .scripted p => some (p.key, p.record)
    | .bridge _ => none

/-- A service with default settings among providers, before anything happened. -/
def bare (policy : Policy) (providers : List Provider) (cancelled : List String) : Except Fault World := do
  let config ← Config.ofObject []
  let service ← Service.new { config with policy } none
  return {
    clock := { cancelled := cancelled.map (·, 0), providers }
    service
    suffix := fun _ _ => ""
    display := Scenario.Display.result }

/-- Registers providers for all they declare, one after the other. -/
def registerAll (w : World) : List Nat → Except Fault World
  | [] => .ok w
  | index :: rest =>
    match w.providerRef index with
    | none => w.registerAll rest
    | some p => do
      let (w, _) ← w.register p none
      w.registerAll rest

end World

namespace Scenario.Dispatch

/-- What a scenario holds; providers are named by their numbers. -/
structure Setting where
  policy : Policy
  kind : Capability
  payload : Payload
  context : Context
  providers : List Provider
  registered : List Nat
  token : Token
  cancelled : List String
  agenda : List (Tick × Deed)
  drain : Nat

/-- What came out: the outcome, unless it never comes; what was seen until then, and what afterwards. -/
structure Report where
  outcome : Option (Except Fault Answer)
  journal : List Entry
  tick : Tick
  afterwards : Option (List Entry × Tick)
  records : List (String × ProviderRecord)

/-- The world in which the fan-out begins: the providers are registered, and the agenda is set. -/
def Setting.world (s : Setting) : Except Fault World := do
  let w ← World.bare s.policy s.providers s.cancelled
  let w ← w.registerAll s.registered
  return { w with agenda := s.agenda }

/-- The fan-out in the world that was set up for it. -/
def Setting.order (s : Setting) : World.Order := .bare s.kind s.payload s.context

def run (s : Setting) : Except Fault Report := do
  let w ← s.world
  let (w, op) := w.begin s.order s.token
  let (w, came) := w.waitFor fun w => (w.outcome? op).isSome
  let tick := w.now
  let (w, journal) := w.takeJournal
  if !came then return ⟨none, journal, tick, none, w.records⟩
  let (w, _) := w.sleep s.drain
  let (w, rest) := w.takeJournal
  return ⟨(w.outcome? op).map Prod.fst, journal, tick, some (rest, w.now), w.records⟩

/-- One provider is called directly, with an empty context and no token. -/
structure CallReport where
  outcome : Option (Except Fault Yield)
  journal : List Entry
  tick : Tick

def callOne (kind : Capability) (providers : List Provider) (index : Nat) (payload : Payload) :
    Except Fault CallReport := do
  let w ← World.bare .strict providers []
  if !kind.fansOut then return ⟨some (.error (.unsupported kind none)), [], 0⟩
  let (clock, task) := w.clock.spawn .none (.call index kind payload {})
  let (w, _) := { w with clock }.waitFor fun w => (w.clock.ending? task).isSome
  let (w, journal) := w.takeJournal
  return ⟨w.clock.ending? task, journal, w.now⟩

end Scenario.Dispatch

end Orchestra
