import Orchestra.Simulation.Journal
import Orchestra.Simulation.Provider

/-!
# Orchestra.Simulation.Clockwork — tasks on a virtual clock

A task runs its moves until it has to wait or ends; what it ended with is kept.  Tasks know nothing of who waits for
them: whether a fan-out still wants its calls makes no difference to how they go on.  `settle` runs everything that can
run at the current tick, and `nextDue` is the next tick at which something is due.
-/

namespace Orchestra

/-- What a task ends with, if it does not fail. -/
inductive Yield where
  | result (r : Result)
  | workspace (w : Workspace)
  | nothing
  deriving Repr

/-- What a task begins with. -/
inductive Start where
  /-- A provider is called. -/
  | call (provider : Nat) (kind : Capability) (payload : Payload) (context : Context)
  /-- A provider is made ready. -/
  | prepare (provider : Nat)
  /-- The workspace is looked up. -/
  | resolve (reply : Reply Workspace)
  deriving Inhabited

/-- What a task ends with once its moves are made. -/
inductive Finish where
  | provider (index : Nat) (reply : Except Fault (Except Fault Result))
  | model (index : Nat) (name : String) (written : Writing) (since : Tick) (reply : Except Fault (Option ModelReply))
  | prepare (provider : Nat) (reply : Except Fault Unit)
  | resolve (reply : Except Fault Workspace)
  | nothing

/-- The same end of a task whose token was cancelled at a checkpoint. -/
def Finish.failed (f : Fault) : Finish → Finish
  | .provider index _ => .provider index (.error f)
  | .model index name written since _ => .model index name written since (.error f)
  | .prepare index _ => .prepare index (.error f)
  | .resolve _ => .resolve (.error f)
  | other => other

inductive Wake where
  | atTick (tick : Tick)
  | onCancellation
  | never
  deriving DecidableEq, Repr

inductive TaskState where
  | fresh (start : Start)
  | waiting (wake : Wake) (moves : List Move) (finish : Finish)
  deriving Inhabited

structure Task where
  id : Nat
  token : Token
  state : TaskState
  deriving Inhabited

/-- No task can take more turns than this: a reply has at most four moves. -/
def Task.turns (t : Task) : Nat :=
  match t.state with
  | .fresh _ => 6
  | .waiting _ moves _ => moves.length + 1

/-- The end of a task: when it came, and with what. -/
structure Ended where
  task : Nat
  tick : Tick
  outcome : Except Fault Yield
  deriving Repr

/-- The end as that of a provider's call. -/
def Ended.call? (e : Ended) : Option Ending :=
  match e.outcome with
  | .ok (.result r) => some (.ok r)
  | .error f => some (.error f)
  | _ => none

structure Clockwork where
  now : Tick := 0
  nextTask : Nat := 0
  /-- The tasks that have not ended. -/
  tasks : List Task := []
  /-- The tasks that have ended, in order. -/
  ended : List Ended := []
  /-- The cancelled sources, each with the tick of its first cancellation. -/
  cancelled : List (String × Tick) := []
  providers : List Provider := []
  /-- What was seen, the last first. -/
  journal : List Entry := []

namespace Clockwork

def log (c : Clockwork) (e : Entry) : Clockwork := { c with journal := e :: c.journal }

def cancelledSources (c : Clockwork) : List String := c.cancelled.map Prod.fst

def isCancelled (c : Clockwork) (t : Token) : Bool := t.isCancelled c.cancelledSources

/-- Cancels a source; again, it does nothing. -/
def cancel (c : Clockwork) (source : String) : Clockwork :=
  if c.cancelledSources.contains source then c else { c with cancelled := c.cancelled ++ [(source, c.now)] }

def ending? (c : Clockwork) (task : Nat) : Option (Except Fault Yield) :=
  (c.ended.find? (·.task == task)).map (·.outcome)

/-- The calls that ended, in one round for every tick at which one of them did. -/
def rounds (c : Clockwork) (calls : FanOut.Calls) : List FanOut.Round :=
  let ended := c.ended.filter fun e => calls.any (·.2 == e.task)
  (ended.map (·.tick)).eraseDups.map fun tick =>
    (ended.filter (·.tick == tick)).filterMap fun e => e.call?.map (e.task, ·)

/-! ### Starting, stopping and ending tasks -/

/-- A new task, which begins when the tasks run next. -/
def spawn (c : Clockwork) (token : Token) (start : Start) : Clockwork × Nat :=
  ({ c with nextTask := c.nextTask + 1, tasks := c.tasks ++ [⟨c.nextTask, token, .fresh start⟩] }, c.nextTask)

/-- A new task that has nothing to do but wait. -/
def spawnTimer (c : Clockwork) (ticks : Nat) : Clockwork × Nat :=
  ({ c with
      nextTask := c.nextTask + 1
      tasks := c.tasks ++ [⟨c.nextTask, .none, .waiting (.atTick (c.now + ticks)) [] .nothing⟩] }, c.nextTask)

/-- Stops a task where it is; it ends with nothing. -/
def kill (c : Clockwork) (task : Nat) : Clockwork := { c with tasks := c.tasks.filter (·.id != task) }

def modifyScripted (c : Clockwork) (index : Nat) (f : ScriptedProvider → ScriptedProvider) : Clockwork :=
  { c with providers := c.providers.modify index fun
      | .scripted p => .scripted (f p)
      | .bridge b => .bridge b }

def modifyBridge (c : Clockwork) (index : Nat) (f : ModelBridge → ModelBridge) : Clockwork :=
  { c with providers := c.providers.modify index fun
      | .scripted p => .scripted p
      | .bridge b => .bridge (f b) }

/-- Notes something in the record of a scripted provider. -/
def note (c : Clockwork) (index : Nat) (f : ProviderRecord → ProviderRecord) : Clockwork :=
  c.modifyScripted index fun p => { p with record := f p.record }

def noteFailure (c : Clockwork) (index : Nat) : Clockwork :=
  c.note index fun r => { r with failed := r.failed ++ [c.now] }

def record (c : Clockwork) (task : Nat) (outcome : Except Fault Yield) : Clockwork :=
  { c with ended := c.ended ++ [⟨task, c.now, outcome⟩] }

/-- Ends a task whose moves are made. -/
def finish (c : Clockwork) (t : Task) : Finish → Clockwork
  | .provider index (.error f) => (c.noteFailure index).record t.id (.error f)
  | .provider index (.ok built) =>
    let c := c.note index fun r => { r with finished := r.finished ++ [c.now] }
    match built with
    | .ok r => c.record t.id (.ok (.result r))
    | .error f => (c.noteFailure index).record t.id (.error f)
  | .model _ name written since reply =>
    c.record t.id
      ((Bridge.finish name written (c.isCancelled t.token) (c.now - since) reply).map fun r => .result (.chat r))
  | .prepare index reply =>
    match reply with
    | .ok () => (c.note index fun r => { r with initialized := r.initialized + 1 }).record t.id (.ok .nothing)
    | .error f => c.record t.id (.error f)
  | .resolve reply => c.record t.id (reply.map .workspace)
  | .nothing => c.record t.id (.ok .nothing)

/-! ### Running -/

def suspend (c : Clockwork) (t : Task) (wake : Wake) (moves : List Move) (finish : Finish) : Clockwork :=
  { c with tasks := c.tasks ++ [{ t with state := .waiting wake moves finish }] }

/-- Makes the moves of a task until it has to wait or ends. -/
def play (c : Clockwork) (t : Task) (last : Finish) : List Move → Clockwork
  | [] => c.finish t last
  | .pause ticks :: rest => c.suspend t (.atTick (c.now + ticks)) rest last
  | .park :: rest => c.suspend t .never rest last
  | .awaitCancellation :: rest =>
    if c.isCancelled t.token then c.play t last rest else c.suspend t .onCancellation rest last
  | .cancel source :: rest => (c.cancel source).play t last rest
  | .checkpoint operation :: rest =>
    match t.token.check c.cancelledSources operation with
    | .error f => c.finish t (last.failed f)
    | .ok () => c.play t last rest

/-- Begins a task. -/
def begin (c : Clockwork) (t : Task) : Start → Clockwork
  | .call index kind payload context =>
    match c.providers[index]? with
    | some (.scripted p) =>
      let reply := p.script.reply p.record.calls
      let c := (c.note index fun r => { r with calls := r.calls + 1 }).log
        (.call p.key kind payload context (c.isCancelled t.token) t.token.canBeCancelled)
      c.play t (.provider index (reply.outcome.map fun build => build kind)) reply.moves
    | some (.bridge b) =>
      match b.request (c.isCancelled t.token) payload.message context with
      | .error f => c.record t.id (.error f)
      | .ok messages =>
        let reply := (b.script.reply b.asked).withoutToken
        let c := (c.modifyBridge index fun b => { b with asked := b.asked + 1 }).log
          (.complete b.key messages b.arguments)
        c.play t (.model index b.name b.written c.now reply.outcome) reply.moves
    | none => c.record t.id (.error (.unsupported kind none))
  | .prepare index =>
    match c.providers[index]? with
    | some (.scripted p) => c.play t (.prepare index p.init.outcome) p.init.withoutToken.moves
    | _ => c.record t.id (.ok .nothing)
  | .resolve reply => c.play t (.resolve reply.outcome) reply.withoutToken.moves

/-- The task can run at this tick. -/
def isReady (c : Clockwork) (t : Task) : Bool :=
  match t.state with
  | .fresh _ => true
  | .waiting (.atTick tick) _ _ => tick ≤ c.now
  | .waiting .onCancellation _ _ => c.isCancelled t.token
  | .waiting .never _ _ => false

/-- Runs the first task that can run. -/
def step (c : Clockwork) : Option Clockwork :=
  (c.tasks.find? c.isReady).map fun t =>
    let c := { c with tasks := c.tasks.filter (·.id != t.id) }
    match t.state with
    | .fresh start => c.begin t start
    | .waiting _ moves finish => c.play t finish moves

def turns (c : Clockwork) : Nat := c.tasks.foldr (fun t n => t.turns + n) 0

def run : Nat → Clockwork → Clockwork
  | 0, c => c
  | n + 1, c =>
    match c.step with
    | none => c
    | some c' => run n c'

/-- Runs everything that can run at this tick. -/
def settle (c : Clockwork) : Clockwork := run c.turns c

/-- The next tick at which a task is due. -/
def nextDue (c : Clockwork) : Option Tick :=
  (c.tasks.filterMap fun t =>
    match t.state with
    | .waiting (.atTick tick) _ _ => some tick
    | _ => none).min?

/-! ### Disposing of providers -/

/-- Disposes of a provider; what it complains about is given back. -/
def disposeProvider (c : Clockwork) (index : Nat) : Clockwork × Option Fault :=
  match c.providers[index]? with
  | some (.scripted p) =>
    ((c.log (.dispose p.key)).note index fun r => { r with disposed := r.disposed + 1 }, p.disposeFault)
  | some (.bridge _) => (c.modifyBridge index fun b => { b with disposed := true }, none)
  | none => (c, none)

end Clockwork

end Orchestra
