import Orchestra.Cancellation
import Orchestra.ModelReply
import Orchestra.Time

/-!
# Orchestra.Bridge — a language model as a chat provider

A bridge asks its model once per call, unless the call is cancelled (reported first), the bridge disposed of, the context
not to be written, or its arguments not to be taken.  A reply counts only if the call is still not cancelled when it has
come, and the response says how long the model took.
-/

namespace Orchestra.Bridge

/-- The provider id of the bridge to the model of that name. -/
def id (name : String) : String := "amplifier:" ++ name

/-- What a cancelled call is reported as. -/
def operation (name : String) : String := id name ++ ":chat"

/-- The call may ask its model. -/
def ready (name : String) (cancelled disposed : Bool) : Except Fault Unit :=
  if cancelled then .error (.cancelled (some (operation name)) none)
  else if disposed then .error (.bridgeDisposed name)
  else .ok ()

/-- What a model takes by place, and so not by name. -/
def places : List String := ["self", "request"]

/-- A model takes any arguments by name but those that it has by place. -/
def accepts (arguments : Object) : Except Fault Unit :=
  match arguments.keys.find? places.contains with
  | none => .ok ()
  | some name => .error (.outside .type ("complete() got multiple values for argument '" ++ name ++ "'") false)

def withDuration (r : ChatResponse) (ticks : Nat) : ChatResponse :=
  { r with metadata := r.metadata.map (Object.put · "duration_ms" (.number (.int (Time.wholeMillis ticks)))) }

/-- After the model has replied, `ticks` after it was asked; its failures pass through. -/
def finish (name : String) (written : Writing) (cancelled : Bool) (ticks : Nat)
    (reply : Except Fault (Option ModelReply)) : Except Fault ChatResponse :=
  match reply with
  | .error f => .error f
  | .ok reply =>
    if cancelled then .error (.cancelled (some (operation name)) none)
    else (ModelReply.toChat written reply name).map (withDuration · ticks)

end Orchestra.Bridge
