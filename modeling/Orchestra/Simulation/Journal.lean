import Orchestra.Event

/-!
# Orchestra.Simulation.Journal — what can be seen from outside, in order

Calls of providers and models, disposals, events that reach listeners and summaries that reach hooks.
-/

namespace Orchestra

inductive Entry where
  | call (provider : String) (kind : Capability) (payload : Payload) (context : Context)
      (cancelled canBeCancelled : Bool)
  | complete (model : String) (messages : List (String × String)) (arguments : Object)
  | dispose (provider : String)
  | callback (name : String) (disposed : Bool) (kinds : List Capability)
  | event (listener : String) (event : BusEvent)
  | hook (hook : Hook)
  | hookDone (name : String)
  deriving Repr

end Orchestra
