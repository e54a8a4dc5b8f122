import Orchestra.Context.Store
import Orchestra.Number.Reading

/-!
# Orchestra.Config — the settings of a service

Settings are read from free values; unknown names are ignored, and the first bad value in reading order is reported.
-/

namespace Orchestra

structure Config where
  debug : Bool
  /-- Texts in debug reports are cut after this many characters. -/
  abridgeTo : Int
  /-- Events are passed on to the hooks of the coordinator. -/
  forwards : Bool
  policy : Policy
  historyLimit : Int
  deriving Repr

namespace Config

def defaultAbridgeTo : Int := 180

/-- A setting's value, or its default if it is not given. -/
def setting (o : Object) (name : String) (default : Value) : Value := (o.get? name).getD default

def ofObject (o : Object) : Except Fault Config := do
  let abridgeTo ← (setting o "debug_truncate_length" (.number (.int defaultAbridgeTo))).toWhole
  let policy ← Policy.ofValue (setting o "dispatch_policy" (.text Policy.strict.value))
  let historyLimit ← (setting o "context_history_limit" (.number (.int ContextStore.defaultLimit))).toWhole
  return {
    debug := (setting o "debug" (.bool false)).isSet
    abridgeTo
    forwards := (setting o "forward_hook_events" (.bool true)).isSet
    policy
    historyLimit }

/-- Providers mounted on the coordinator are to be bridged. -/
def bridges (o : Object) : Bool := (setting o "bridge_providers" (.bool true)).isSet

end Config

end Orchestra
