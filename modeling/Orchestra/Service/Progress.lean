import Orchestra.Service.Request

/-!
# Orchestra.Service.Progress — how a world goes on

An operation gets on to its next stage once what it waits for has come, or is aborted where it is.  `settle` runs
whatever can run at the current tick, and `waitFor` lets time pass.
-/

namespace Orchestra

namespace World

/-! ### Operations -/

/-- The next stage of an operation, if what it waits for has come. -/
def resume (w : World) (op : Nat) (o : Operation) : Option World :=
  match o.stage with
  | .done _ _ => none
  | .resolving context ask task =>
    match w.clock.ending? task with
    | none => none
    | some (.error .interrupted) => some (w.conclude op o.assistant (.error .interrupted))
    | some (.ok (.workspace workspace)) =>
      some (w.send op o.assistant o.token { context with workspace := some workspace } ask)
    | some _ => some (w.send op o.assistant o.token context ask)
  | .flying flight =>
    (flight.look w.clock o.token).map fun outcome =>
      match o.request with
      | none => w.complete op (outcome.map .result)
      | some record => w.decide op o.assistant record outcome
  | .relaying telling queue outcome =>
    if w.isTelling telling then none
    else if w.service.hooks.all (·.goesOn telling) then some (w.relay op o.assistant outcome queue)
    else some (w.conclude op o.assistant (.error .interrupted))

/-- Cancels the task of an operation at the place where it waits.  Providers keep running; an outcome that hooks were being
told of is lost to the caller. -/
def abort (w : World) (op : Nat) : World :=
  match w.operations[op]? with
  | none => w
  | some o =>
    match o.stage with
    | .done _ _ => w
    | .resolving _ _ task => { w with clock := w.clock.kill task }.conclude op o.assistant (.error .interrupted)
    | .flying _ =>
      match o.request with
      | none => w.complete op (.error .interrupted)
      | some record =>
        ((w.countFailure record .interrupted).announce
          (.error record .interrupted (w.now - record.startedAt))).conclude op o.assistant (.error .interrupted)
    | .relaying telling _ _ => (w.hush telling).conclude op o.assistant (.error .interrupted)

/-- Gets the first operation on that can go on. -/
def resumeFirst (w : World) : Option World := w.operations.zipIdx.findSome? fun (o, op) => w.resume op o

/-! ### Deeds -/

/-- The last registration of a provider. -/
def lastHandle? (w : World) (index : Nat) : Option Nat :=
  (w.service.ledger.registrations.zipIdx.filter fun (r, _) => r.provider.index == index).getLast?.map Prod.snd

def doDeed (w : World) : Deed → World
  | .cancel source => { w with clock := w.clock.cancel source }
  | .dispose index =>
    match w.lastHandle? index with
    | none => w
    | some handle => (w.dispose handle).1
  | .register index =>
    match w.providerRef index with
    | none => w
    | some p =>
      match w.register p none with
      | .error _ => w
      | .ok (w, _) => w

/-- Does what the agenda holds for this tick or before. -/
def doDue (w : World) : World :=
  let due := w.agenda.filter (·.1 ≤ w.now)
  due.foldl (fun w d => w.doDeed d.2) { w with agenda := w.agenda.filter fun d => !(d.1 ≤ w.now) }

/-! ### Time -/

def stagesLeft (w : World) : Nat := w.operations.foldr (fun o n => o.stagesLeft + n) 0

/-- Runs tasks, hooks and operations in turn: operations look only when no task can run and hooks have had their turn. -/
def turn : Nat → World → World
  | 0, w => { w with clock := w.clock.settle }.tellAll
  | n + 1, w =>
    let w := { w with clock := w.clock.settle }.tellAll
    match w.resumeFirst with
    | none => w
    | some w' => turn n w'

/-- Runs everything that can run at this tick. -/
def settle (w : World) : World :=
  let w := w.doDue
  turn w.stagesLeft w

/-- The next tick at which something is due. -/
def nextDue (w : World) : Option Tick :=
  (w.clock.nextDue.toList ++ w.tellings.map (·.due) ++ w.agenda.map Prod.fst).min?

/-- An upper bound on how often time can move before nothing is due any more. -/
def patience (w : World) : Nat :=
  2 * (w.clock.turns + w.tellings.length + w.agenda.length + w.stagesLeft * (6 * (w.clock.providers.length + 3)) + 2)

/-- Lets time pass until the condition holds at the end of a tick; false if it never will. -/
def passTime (condition : World → Bool) : Nat → World → World × Bool
  | 0, w => (w, false)
  | n + 1, w =>
    let w := w.settle
    if condition w then (w, true)
    else
      match w.nextDue with
      | none => (w, false)
      | some tick => passTime condition n { w with clock := { w.clock with now := tick } }

def waitFor (w : World) (condition : World → Bool) : World × Bool := passTime condition w.patience w

/-- Lets so many ticks pass. -/
def sleep (w : World) (ticks : Nat) : World × Bool :=
  let (clock, task) := w.clock.spawnTimer ticks
  { w with clock }.waitFor fun w => (w.clock.ending? task).isSome

end World

end Orchestra
