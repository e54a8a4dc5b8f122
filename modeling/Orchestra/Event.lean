import Orchestra.Analysis
import Orchestra.Context.Store
import Orchestra.RequestId
import Orchestra.Result.Record
import Orchestra.Time

/-!
# Orchestra.Event — what is told to listeners and to hooks

Listeners on the bus get events of three streams; hooks of the coordinator get a summary under a name.
-/

namespace Orchestra

/-- What an operation gives its caller. -/
inductive Answer where
  | result (r : Result)
  | text (s : String)
  | report (r : Report)
  | context (c : Context)
  deriving Repr

/-- One request to the service on its way. -/
structure RequestRecord where
  id : RequestId
  operation : String
  kind : Capability
  startedAt : Tick
  deriving Repr

/-- What a response answers: a kind of request to the service, or an operation of the assistant by name. -/
inductive Subject where
  | capability (kind : Capability)
  | operation (name : String)
  deriving DecidableEq, Repr

def Subject.text : Subject → String
  | capability kind => kind.value
  | operation name => name

inductive BusEvent where
  | response (id : RequestId) (subject : Subject) (answer : Answer) (ticks : Nat)
  | error (id : RequestId) (fault : Fault) (operation : String) (ticks : Nat)
  | context (update : ContextUpdate)
  deriving Repr

inductive Stream where
  | response | error | context
  deriving DecidableEq, Repr

def BusEvent.stream : BusEvent → Stream
  | response _ _ _ _ => .response
  | error _ _ _ _ => .error
  | context _ => .context

/-- What hooks are told. -/
inductive Hook where
  | response (record : RequestRecord) (result : Result) (ticks : Nat)
  | error (record : RequestRecord) (fault : Fault) (ticks : Nat)
  /-- A response in full, as it was prepared for display. -/
  | debug (record : RequestRecord) (shown : Value)
  | contextChanged (update : ContextUpdate)
  deriving Repr

namespace Hook

def name : Hook → String
  | response _ _ _ => "ai_core:response"
  | error _ _ _ => "ai_core:error"
  | debug _ _ => "ai_core:response:debug"
  | contextChanged _ => "ai_core:context_changed"

def summary (record : RequestRecord) (status : String) : Object :=
  [("request_id", .text record.id.text), ("kind", .text record.kind.value), ("operation", .text record.operation),
    ("status", .text status)]

def duration (ticks : Nat) : Object := [("duration_ms", .number (.int (Time.wholeMillis ticks)))]

def data : Hook → Object
  | response record result ticks => summary record "ok" ++ duration ticks ++ result.counts
  | error record fault ticks =>
    summary record "error" ++ [("error_type", .text fault.label), ("error_message", .text fault.message)] ++
      duration ticks
  | debug record shown => [("lvl", .text "DEBUG"), ("request_id", .text record.id.text), ("result", shown)]
  | contextChanged update =>
    [("changed_fields", .list ((Changes.names update.changes).mergeSort (fun a b => decide (a ≤ b)) |>.map .text)),
      ("empty", .bool update.context.isEmpty)]

end Hook

end Orchestra
