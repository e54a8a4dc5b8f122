import Orchestra.Simulation.Journal

/-!
# Orchestra.Service.Telling — hooks that are being told

Telling a hook takes some number of ticks.  One that is told in the background begins when hooks next have their turn,
and nobody waits for its end; otherwise an operation goes on only when the hook has been told.  Providers never wait for
any of this.
-/

namespace Orchestra

structure Telling where
  number : Nat
  hook : Hook
  background : Bool
  begun : Bool
  /-- When the hook has been told. -/
  due : Tick
  deriving Repr

namespace Telling

/-- What a turn at this tick lets be seen. -/
def seen (t : Telling) (now : Tick) : List Entry :=
  (if t.begun then [] else [.hook t.hook]) ++ if t.begun && t.due ≤ now then [.hookDone t.hook.name] else []

/-- The telling after its turn, if it has not ended. -/
def after? (t : Telling) (now : Tick) : Option Telling := if t.due ≤ now then none else some { t with begun := true }

end Telling

end Orchestra
