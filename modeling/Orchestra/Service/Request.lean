import Orchestra.Service.World

/-!
# Orchestra.Service.Request — how an operation begins and how it ends

A request is counted and named, and its providers are called.  What comes of it is counted, published, told to hooks one
by one, and then given to the caller; an operation of the assistant reads it first and publishes an event of its own.
-/

namespace Orchestra

namespace World

/-! ### The end of an operation -/

/-- Gives the caller the outcome.  An operation of the assistant reads it first and tells listeners; only if its task was
cancelled it tells nobody. -/
def conclude (w : World) (op : Nat) (assistant : Option AssistantRecord) (outcome : Except Fault Result) : World :=
  match assistant with
  | none => w.complete op (outcome.map .result)
  | some a =>
    match outcome.bind a.reading.read with
    | .error .interrupted => w.complete op (.error .interrupted)
    | .error f => (w.fire (.error a.id f a.operation (w.now - a.startedAt))).complete op (.error f)
    | .ok answer =>
      (w.fire (.response a.id (.operation a.operation) answer (w.now - a.startedAt))).complete op (.ok answer)

/-- Tells hooks one by one of an outcome that stands, and concludes. -/
def relay (w : World) (op : Nat) (assistant : Option AssistantRecord) (outcome : Except Fault Result) :
    List Hook → World
  | [] => w.conclude op assistant outcome
  | hook :: rest =>
    match w.service.hooks with
    | none => w.conclude op assistant outcome
    | some hooks =>
      if hooks.delay w.told hook = 0 then
        let w := w.log (.hook hook)
        if hooks.goesOn w.told then w.relay op assistant outcome rest
        else w.conclude op assistant (.error .interrupted)
      else
        let (w, telling) := w.tell hook (hooks.delay w.told hook)
        w.setStage op (.relaying telling rest outcome)

/-- Counts a failure and tells listeners. -/
def countFailure (w : World) (record : RequestRecord) (f : Fault) : World :=
  { w with service := { w.service with errors := w.service.errors + 1 } }.fire
    (.error record.id f record.operation (w.now - record.startedAt))

/-- Counts a success and tells listeners. -/
def countSuccess (w : World) (record : RequestRecord) (r : Result) : World :=
  let ticks := w.now - record.startedAt
  { w with service := { w.service with successes := w.service.successes + 1, busy := w.service.busy + ticks } }.fire
    (.response record.id (.capability record.kind) (.result r) ticks)

/-- A result as the debug hook is to show it, if it is to be told at all; it may be that it cannot be prepared. -/
def displayed? (w : World) (r : Result) : Option (Except Complaint Value) :=
  if w.service.config.debug then some (w.display w.service.config.abridgeTo r) else none

/-- The hooks that are told of a success. -/
def successHooks (w : World) (record : RequestRecord) (r : Result) : List Hook :=
  .response record r (w.now - record.startedAt) ::
    match w.displayed? r with
    | some (.ok shown) => [.debug record shown]
    | _ => []

/-- What a success is to the caller: the result, unless it was to be shown and could not be. -/
def handed (w : World) (r : Result) : Except Fault Result :=
  match w.displayed? r with
  | some (.error complaint) => .error complaint.fault
  | _ => .ok r

/-- What a decided request is followed by. -/
def decide (w : World) (op : Nat) (assistant : Option AssistantRecord) (record : RequestRecord) :
    Except Fault Result → World
  | .ok r => (w.countSuccess record r).relay op assistant (w.handed r) (w.successHooks record r)
  | .error f =>
    (w.countFailure record f).relay op assistant (.error f) [.error record f (w.now - record.startedAt)]

/-! ### The beginning of an operation -/

/-- Calls every provider; each call is a task of its own. -/
def call (w : World) (kind : Capability) (payload : Payload) (context : Context) (token : Token) :
    List ProviderRef → World × FanOut.Calls
  | [] => (w, [])
  | p :: rest =>
    let (clock, task) := w.clock.spawn token (.call p.index kind payload context)
    let (w, calls) := { w with clock }.call kind payload context token rest
    (w, (p, task) :: calls)

/-- A fan-out from the providers listed now; refused, it calls none. -/
def launch (w : World) (kind : Capability) (payload : Payload) (context : Context) (token : Token) :
    World × Except Fault Flight :=
  match FanOut.invited w.service.ledger.registry kind (w.isCancelled token) with
  | .error f => (w, .error f)
  | .ok providers =>
    let (w, calls) := w.call kind payload context token providers
    (w, .ok ⟨kind, w.service.config.policy, calls⟩)

/-- A record with a fresh id for a request that begins now. -/
def newRequest (w : World) (operation : String) (kind : Capability) : World × RequestRecord :=
  let ids := w.service.ids
  let (id, ids) := ids.next (Time.calendarMillis w.now) (w.suffix ids.source ids.issued)
  ({ w with service := { w.service with ids, requests := w.service.requests + 1 } }, ⟨id, operation, kind, w.now⟩)

/-- A request to the service; without a context it is sent with the current one. -/
def request (w : World) (op : Nat) (assistant : Option AssistantRecord) (token : Token) (operation : String)
    (kind : Capability) (payload : Payload) (context : Option Context) : World :=
  let (w, record) := w.newRequest operation kind
  let w := w.modifyOperation op fun o => { o with request := some record }
  match w.launch kind payload (context.getD w.service.context.current) token with
  | (w, .error f) => w.decide op assistant record (.error f)
  | (w, .ok flight) => w.setStage op (.flying flight)

/-- Sends what is asked, now that its context is known. -/
def send (w : World) (op : Nat) (assistant : Option AssistantRecord) (token : Token) (context : Context) :
    Ask → World
  | .context => w.complete op (.ok (.context context))
  | .chat message => w.request op assistant token "get_chat_response" .chat (.text message) (some context)
  | .edit path range instruction options =>
    w.request op assistant token "get_code_edit" .codeEdit (.edit ⟨path, range, instruction, context, options⟩)
      (some context)

/-- Builds the context of what is asked: the current one under the extras, and the workspace looked up if it is missing
and can be. -/
def prepare (w : World) (op : Nat) (assistant : Option AssistantRecord) (token : Token) (extras : Extras) (ask : Ask) :
    World :=
  match w.service.context.current.overlay extras.toChanges with
  | .error f => w.conclude op assistant (.error f)
  | .ok context =>
    match context.workspace, w.resolver with
    | none, some reply =>
      let (clock, task) := w.clock.spawn .none (.resolve reply)
      { w with clock }.setStage op (.resolving context ask task)
    | _, _ => w.send op assistant token context ask

/-- What can be begun. -/
inductive Order where
  /-- A fan-out and nothing around it. -/
  | bare (kind : Capability) (payload : Payload) (context : Context)
  | service (operation : String) (kind : Capability) (payload : Payload) (context : Option Context)
  | assistant (assignment : Assignment)
  /-- The context that the assistant would send. -/
  | context (extras : Extras)

namespace Order

/-- Completions for a query. -/
def completion (query : String) (context : Option Context) : Order :=
  .service "get_completion" .codeCompletion (.text query) context

/-- An answer to a message. -/
def chatResponse (message : String) (context : Option Context) : Order :=
  .service "get_chat_response" .chat (.text message) context

/-- An edit, in the context that its request carries. -/
def codeEdit (request : EditRequest) : Order :=
  .service "get_code_edit" .codeEdit (.edit request) (some request.context)

end Order

/-- Begins an operation and gives its number. -/
def begin (w : World) (order : Order) (token : Token) : World × Nat :=
  let op := w.operations.length
  let fresh : Operation := { token, stage := .done (.error .interrupted) w.now }
  let w := { w with operations := w.operations ++ [fresh] }
  match order with
  | .bare kind payload context =>
    match w.launch kind payload context token with
    | (w, .error f) => (w.complete op (.error f), op)
    | (w, .ok flight) => (w.setStage op (.flying flight), op)
  | .service operation kind payload context => (w.request op none token operation kind payload context, op)
  | .assistant a =>
    let ids := w.assistantIds
    let (id, ids) := ids.next (Time.calendarMillis w.now) (w.suffix ids.source ids.issued)
    let record : AssistantRecord := ⟨id, a.operation, w.now, a.reading⟩
    let w := { w with assistantIds := ids }.modifyOperation op fun o => { o with assistant := some record }
    (w.prepare op (some record) token a.extras a.ask, op)
  | .context extras => (w.prepare op none token extras .context, op)

end World

end Orchestra
