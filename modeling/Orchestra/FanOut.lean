import Orchestra.Registry
import Orchestra.Result.Merge

/-!
# Orchestra.FanOut — one request to every provider of a kind

A fan-out begins with the providers listed at that moment (`invited`) and then waits in rounds: each shows the calls that
ended since the one before.  Under the strict policy the first failure of a round, in order of registration, decides at
once; otherwise failures are skipped.  Once no call is pending the results are merged, or, if there is none, the skipped
failure of the provider registered first is reported.  A cancelled token decides before anything that a round shows.
-/

namespace Orchestra

/-- How a call ended: with a result, or with a fault. -/
abbrev Ending := Except Fault Result

namespace FanOut

/-- The providers that a request goes to, in order of registration. -/
def invited (r : Registry) (kind : Capability) (cancelled : Bool) : Except Fault (List ProviderRef) :=
  if !kind.fansOut then .error (.unsupported kind none)
  else
    match r.providersFor kind with
    | [] => .error (.noProviders kind)
    | p :: ps => if cancelled then .error (.cancelled (some kind.value) none) else .ok (p :: ps)

/-- A provider's fault as the fan-out reports it: cancellation as it is, anything else wrapped. -/
def reported (kind : Capability) (provider : ProviderRef) : Fault → Fault
  | .interrupted => .cancelled (some kind.value) none
  | .cancelled operation text => .cancelled operation text
  | f => .providerFailed provider.id kind f

/-- The calls in order of registration: each provider with the number of its task. -/
abbrev Calls := List (ProviderRef × Nat)

/-- What a round shows: the tasks that ended, and how. -/
abbrev Round := List (Nat × Ending)

/-- The failures skipped so far, by place in the order of registration. -/
abbrev Skipped := List (Nat × Fault)

/-- Goes through the calls that a round shows, in order of registration, from a place on.  Strictly, the first failure is
raised; otherwise each is put among the skipped. -/
def sift (kind : Capability) (policy : Policy) (round : Round) : Nat → Calls → Skipped → Except Fault Skipped
  | _, [], skipped => .ok skipped
  | place, (p, task) :: rest, skipped =>
    match round.lookup task, policy with
    | some (.error f), .strict => .error (reported kind p f)
    | some (.error f), .bestEffort => sift kind policy round (place + 1) rest (skipped ++ [(place, reported kind p f)])
    | _, _ => sift kind policy round (place + 1) rest skipped

/-- The results of the calls that were not skipped, from a place on. -/
def results (ended : Round) (skipped : Skipped) : Nat → Calls → List Result
  | _, [] => []
  | place, (_, task) :: rest =>
    match skipped.lookup place, ended.lookup task with
    | none, some (.ok r) => r :: results ended skipped (place + 1) rest
    | _, _ => results ended skipped (place + 1) rest

/-- The outcome once every call has ended. -/
def gather (kind : Capability) (calls : Calls) (ended : Round) (skipped : Skipped) : Except Fault Result :=
  match results ended skipped 0 calls, (skipped.map Prod.fst).min?.bind fun place => skipped.lookup place with
  | [], some f => .error f
  | rs, _ => Result.merge kind rs

/-- Waits round by round as long as calls are pending; nothing if a further round would have to be waited for. -/
def await (kind : Capability) (policy : Policy) (calls : Calls) (ended : Round) :
    List Nat → Skipped → List Round → Option (Except Fault Result)
  | [], skipped, _ => some (gather kind calls ended skipped)
  | _ :: _, _, [] => none
  | p :: ps, skipped, round :: rounds =>
    match sift kind policy round 0 calls skipped with
    | .error f => some (.error f)
    | .ok skipped =>
      await kind policy calls ended ((p :: ps).filter fun task => (round.lookup task).isNone) skipped rounds

/-- What the rounds so far decide, if anything. -/
def verdict (kind : Capability) (policy : Policy) (calls : Calls) (rounds : List Round) :
    Option (Except Fault Result) :=
  await kind policy calls rounds.flatten (calls.map Prod.snd) [] rounds

/-- What a look at the rounds so far decides: a cancelled token comes before everything else. -/
def look (kind : Capability) (policy : Policy) (cancelled : Bool) (calls : Calls) (rounds : List Round) :
    Option (Except Fault Result) :=
  if cancelled then some (.error (.cancelled (some kind.value) none)) else verdict kind policy calls rounds

end FanOut

end Orchestra
