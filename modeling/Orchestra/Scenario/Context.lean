import Orchestra.Context.Store

/-!
# Orchestra.Scenario.Context — a context store driven step by step

The observer is told of every update that was committed.  One that fails lets the caller see its failure instead of the
new context, but the update stands.
-/

namespace Orchestra.Scenario.Context

/-- What the observer does with an update. -/
inductive Observer where
  | absent | listens
  | fails (f : Fault)
  deriving DecidableEq, Repr

inductive Step where
  | set (extras : Extras) (fields : Changes)
  | get
  | history
  | clear
  /-- The caller changes the preferences of the context that was last given out. -/
  | spoil
  deriving Repr

inductive Reply where
  | context (c : Context)
  | history (snapshots : List Context) (limit : Nat)
  | spoiled (had : Bool)
  | fault (f : Fault)
  | done
  deriving Repr

/-- What a step gives, what the observer was told, and what the store holds afterwards. -/
structure Answer where
  reply : Reply
  event : Option ContextUpdate := none
  current : Context
  history : Nat
  deriving Repr

structure State where
  store : ContextStore
  observer : Observer
  /-- The context that was last given out. -/
  lent : Option Context := none

/-- One step: its reply, and the event that the observer saw. -/
def State.step (s : State) : Step → State × Reply × Option ContextUpdate
  | .set extras fields =>
    match s.store.set extras fields with
    | .error f => (s, .fault f, none)
    | .ok (store, update) =>
      match s.observer with
      | .absent => ({ s with store, lent := some update.context }, .context update.context, none)
      | .listens => ({ s with store, lent := some update.context }, .context update.context, some update)
      | .fails f => ({ s with store }, .fault f, some update)
  | .get => ({ s with lent := some s.store.current }, .context s.store.current, none)
  | .history =>
    ({ s with lent := s.store.history.getLast? }, .history s.store.history s.store.limit, none)
  | .clear => ({ s with store := s.store.clear }, .done, none)
  | .spoil => (s, .spoiled (s.lent.any fun c => c.preferences.isSome), none)

def State.run (s : State) : List Step → List Answer
  | [] => []
  | step :: rest =>
    let (s, reply, event) := s.step step
    ⟨reply, event, s.store.current, s.store.history.length⟩ :: s.run rest

def run (limit : Int) (observer : Observer) (steps : List Step) : Except Fault (List Answer) := do
  let store ← ContextStore.new limit
  return State.run ⟨store, observer, none⟩ steps

end Orchestra.Scenario.Context
