import Orchestra.Bridge
import Orchestra.Context.Prompt
import Orchestra.FanOut
import Orchestra.Simulation.Script

/-!
# Orchestra.Simulation.Provider — scripted providers, and bridges to scripted models

Both are registered alike; a scripted provider also counts what happened to it.
-/

namespace Orchestra

/-- What happened to a scripted provider so far. -/
structure ProviderRecord where
  calls : Nat := 0
  /-- When replies were given, before their results were built. -/
  finished : List Tick := []
  /-- When calls failed. -/
  failed : List Tick := []
  initialized : Nat := 0
  disposed : Nat := 0
  deriving DecidableEq, Repr, Inhabited

structure ScriptedProvider where
  key : String
  id : String
  capabilities : List Capability
  /-- The result is built for the kind of the call, which may fail. -/
  script : Script (Capability → Except Fault Result)
  init : Reply Unit
  disposeFault : Option Fault
  record : ProviderRecord := {}

namespace ScriptedProvider

/-- What a provider answers whose script says nothing else. -/
def defaultResult (id : String) : Capability → Result
  | .chat => .chat { message := some ("reply from " ++ id) }
  | kind => .emptyFor kind

end ScriptedProvider

structure ModelBridge where
  key : String
  name : String
  script : Script (Option ModelReply)
  system : String
  arguments : Object
  /-- How often the model was asked. -/
  asked : Nat := 0
  disposed : Bool := false
  /-- How values are written for the model, and in its replies. -/
  written : Writing := Value.inSentence
  /-- Whether the model takes arguments by name. -/
  accepts : Object → Except Fault Unit := Bridge.accepts

/-- What the model is to be asked in a call that begins now, unless the call fails before: it is cancelled, the bridge has
been disposed of, the context cannot be written, or the arguments are not taken. -/
def ModelBridge.request (b : ModelBridge) (cancelled : Bool) (message : String) (context : Context) :
    Except Fault (List (String × String)) := do
  Bridge.ready b.name cancelled b.disposed
  let messages ← chatMessages b.written message context b.system
  b.accepts b.arguments
  return messages

inductive Provider where
  | scripted (p : ScriptedProvider)
  | bridge (b : ModelBridge)

namespace Provider

def key : Provider → String
  | scripted p => p.key
  | bridge b => b.key

/-- The provider as the registry sees it. -/
def ref (index : Nat) : Provider → ProviderRef
  | scripted p => ⟨index, p.id, p.capabilities⟩
  | bridge b => ⟨index, Bridge.id b.name, [.chat]⟩

end Provider

end Orchestra
