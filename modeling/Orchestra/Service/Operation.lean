import Orchestra.Service.Assistant
import Orchestra.Simulation.Clockwork

/-!
# Orchestra.Service.Operation — an operation on its way

An operation waits for the workspace, then for its providers, then for the hooks that are told of the outcome, and is then
done.  It passes through these stages in this order, skipping what there is no need to wait for.
-/

namespace Orchestra

/-- The calls that a fan-out waits for: each provider with its task. -/
structure Flight where
  kind : Capability
  policy : Policy
  calls : FanOut.Calls
  deriving Repr

namespace Flight

/-- What the fan-out sees when it looks now. -/
def look (f : Flight) (c : Clockwork) (token : Token) : Option (Except Fault Result) :=
  FanOut.look f.kind f.policy (c.isCancelled token) f.calls (c.rounds f.calls)

end Flight

/-- An operation of the assistant, around the request that it makes. -/
structure AssistantRecord where
  id : RequestId
  operation : String
  startedAt : Tick
  reading : Reading
  deriving Repr

inductive Stage where
  /-- The workspace is being looked up, to complete the context of what is asked. -/
  | resolving (context : Context) (ask : Ask) (task : Nat)
  /-- The providers are at work. -/
  | flying (flight : Flight)
  /-- Hooks are being told of an outcome that stands. -/
  | relaying (telling : Nat) (queue : List Hook) (outcome : Except Fault Result)
  | done (outcome : Except Fault Answer) (at_ : Tick)

structure Operation where
  token : Token
  assistant : Option AssistantRecord := none
  /-- The request to the service, once it is made; a bare fan-out makes none. -/
  request : Option RequestRecord := none
  stage : Stage

namespace Operation

/-- The outcome and the tick at which it was reached. -/
def outcome? (o : Operation) : Option (Except Fault Answer × Tick) :=
  match o.stage with
  | .done outcome tick => some (outcome, tick)
  | _ => none

/-- How many more stages there can be. -/
def stagesLeft (o : Operation) : Nat :=
  match o.stage with
  | .resolving _ _ _ => 5
  | .flying _ => 4
  | .relaying _ queue _ => queue.length + 1
  | .done _ _ => 0

end Operation

end Orchestra
