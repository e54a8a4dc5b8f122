import Orchestra.Cancellation
import Orchestra.Time

/-!
# Orchestra.Simulation.Script — what scripted parties do when they are called

A reply is a short course of moves (wait, cancel a source, check the token) with an outcome at its end.  A script gives
one reply per call, and its last one ever after.
-/

namespace Orchestra

/-- One move of a task; `pause`, `park` and `awaitCancellation` may make it wait. -/
inductive Move where
  | pause (ticks : Nat)
  /-- Waits and never goes on. -/
  | park
  /-- Waits until the task's token is cancelled. -/
  | awaitCancellation
  | cancel (source : String)
  /-- Goes on only if the task's token is not cancelled. -/
  | checkpoint (operation : Option String)
  deriving DecidableEq, Repr

/-- A wait that is not for a time. -/
inductive Wait where
  | forever | cancellation
  deriving DecidableEq, Repr

def Wait.move : Wait → Move
  | .forever => .park
  | .cancellation => .awaitCancellation

/-- What a call does, in the order of the fields, and what it ends with. -/
structure Reply (α : Type) where
  delay : Nat := 0
  wait : Option Wait := none
  cancel : Option String := none
  check : Option (Option String) := none
  outcome : Except Fault α

namespace Reply

variable {α : Type}

def moves (r : Reply α) : List Move :=
  (if r.delay = 0 then [] else [.pause r.delay]) ++ (r.wait.map (·.move)).toList ++
    (r.cancel.map .cancel).toList ++ (r.check.map .checkpoint).toList

/-- The same reply where no token is at hand: a wait for one never ends, and there is nothing to check. -/
def withoutToken (r : Reply α) : Reply α :=
  { r with wait := r.wait.map fun _ => .forever, check := none }

end Reply

/-- Replies to the first, second, … call; there is always one. -/
structure Script (α : Type) where
  first : Reply α
  rest : List (Reply α) := []

namespace Script

variable {α : Type}

def ofList (replies : List (Reply α)) (default : Reply α) : Script α :=
  match replies with
  | [] => ⟨default, []⟩
  | r :: rs => ⟨r, rs⟩

/-- The reply to the call after `n` others. -/
def reply (s : Script α) (n : Nat) : Reply α := (s.first :: s.rest).getD n ((s.first :: s.rest).getLast (by simp))

end Script

end Orchestra
