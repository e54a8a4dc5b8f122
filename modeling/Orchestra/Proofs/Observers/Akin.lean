import Orchestra.Proofs.Dispatch.Launch
import Orchestra.Proofs.Events.Silence

/-!
# Orchestra.Proofs.Observers.Akin — worlds that differ by their observers only

Listeners and hooks observe a service.  `World.stripped` is what is left of a world without them: nobody listens, no hook is
told, whoever was waiting for hooks has been given the outcome, and of the journal and of the events there is what would be
there all the same.  Two worlds are akin if their observers only return or raise and they are the same when stripped
(`Akin`); what is told to listeners and hooks leaves a world akin to what it was.
-/

namespace Orchestra

/-- Listeners or hooks were told something. -/
def Entry.isTold : Entry → Bool
  | .event _ _ | .hook _ | .hookDone _ => true
  | _ => false

/-- Whoever reacts so returns or raises, and does nothing else. -/
def Passive (reaction : Option Reaction) : Prop := reaction = none ∨ reaction = some .fail

/-- The clockwork without what listeners and hooks were told. -/
def Clockwork.stripped (c : Clockwork) : Clockwork := { c with journal := c.journal.filter (!·.isTold) }

/-- The operation with what its caller is to get, as soon as that is decided; if the operation is `lost`, that does not
matter. -/
def Operation.stripped (lost : Bool) (o : Operation) : Operation :=
  match o.decided? with
  | none => o
  | some answer => { o with stage := .done (if lost then .error .interrupted else answer) 0 }

theorem Operation.stripped_of_undecided {o : Operation} (h : o.decided? = none) (lost : Bool) : o.stripped lost = o := by
  rw [stripped, h]

theorem Operation.stripped_of_decided {o : Operation} {answer : Except Fault Answer} (h : o.decided? = some answer)
    (lost : Bool) : o.stripped lost = { o with stage := .done (if lost then .error .interrupted else answer) 0 } := by
  rw [stripped, h]

theorem Operation.stripped_decided? (lost : Bool) (o : Operation) :
    (o.stripped lost).decided? = o.decided?.map fun answer => if lost then .error .interrupted else answer := by
  cases h : o.decided? with
  | none => rw [stripped_of_undecided h, h]; rfl
  | some answer => rw [stripped_of_decided h]; rfl

@[simp] theorem Operation.stripped_assistant (lost : Bool) (o : Operation) : (o.stripped lost).assistant = o.assistant := by
  unfold stripped; split <;> rfl

@[simp] theorem Operation.stripped_request (lost : Bool) (o : Operation) : (o.stripped lost).request = o.request := by
  unfold stripped; split <;> rfl

namespace World

variable {lost : Nat → Bool} {u v w w' v' : World} {op : Nat} {o : Operation}

/-- Everyone who listens returns or raises. -/
def Passive (w : World) : Prop :=
  ∀ stream, ∀ l ∈ (w.service.bus.emitter stream).listeners, Orchestra.Passive l.reaction

/-- The world without listeners and hooks.  What the assistant tells is left out, for it is told once hooks have been; what
comes of operations that are `lost` is left out as well. -/
def stripped (lost : Nat → Bool) (w : World) : World :=
  { w with
    clock := w.clock.stripped
    service := { w.service with hooks := none, bus := {} }
    operations := w.operations.mapIdx fun op o => o.stripped (lost op)
    tellings := []
    told := 0
    listeners := 0
    subscriptions := []
    published := w.published.filter (!·.ofAssistant) }

/-- Two worlds that differ by what passive listeners and hooks are told, and nothing else. -/
structure Akin (lost : Nat → Bool) (w v : World) : Prop where
  passive : w.Passive
  passive' : v.Passive
  stripped : w.stripped lost = v.stripped lost

theorem Akin.symm (h : Akin lost w v) : Akin lost v w := ⟨h.passive', h.passive, h.stripped.symm⟩

theorem Akin.refl (h : w.Passive) : Akin lost w w := ⟨h, h, rfl⟩

theorem Akin.trans (h : Akin lost w v) (h' : Akin lost v u) : Akin lost w u :=
  ⟨h.passive, h'.passive', h.stripped.trans h'.stripped⟩

/-- What changes two stripped worlds in the same way leaves akin worlds akin. -/
theorem Akin.both (h : Akin lost w v) (f : World → World) (hw : w'.stripped lost = f (w.stripped lost))
    (hv : v'.stripped lost = f (v.stripped lost)) (hbus : w'.service.bus = w.service.bus)
    (hbus' : v'.service.bus = v.service.bus) : Akin lost w' v' := by
  refine ⟨fun stream => ?_, fun stream => ?_, by rw [hw, hv, h.stripped]⟩
  · rw [hbus]; exact h.passive stream
  · rw [hbus']; exact h.passive' stream

/-! ### What akin worlds have in common -/

theorem Akin.same {α : Type} (h : Akin lost w v) (f : World → α) : f (v.stripped lost) = f (w.stripped lost) :=
  congrArg f h.stripped.symm

theorem Akin.now (h : Akin lost w v) : v.now = w.now := h.same World.now

theorem Akin.clock (h : Akin lost w v) : v.clock.stripped = w.clock.stripped := h.same World.clock

theorem Akin.ledger (h : Akin lost w v) : v.service.ledger = w.service.ledger :=
  h.same (fun u : World => u.service.ledger)

theorem Akin.config (h : Akin lost w v) : v.service.config = w.service.config :=
  h.same (fun u : World => u.service.config)

theorem Akin.context (h : Akin lost w v) : v.service.context = w.service.context :=
  h.same (fun u : World => u.service.context)

theorem Akin.metrics (h : Akin lost w v) : v.service.metrics = w.service.metrics :=
  h.same (fun u : World => u.service.metrics)

theorem Akin.handed (h : Akin lost w v) : v.handed = w.handed := h.same World.handed

theorem Akin.length (h : Akin lost w v) : v.operations.length = w.operations.length := by
  have hlength := h.same (fun u : World => u.operations.length)
  simpa [World.stripped] using hlength

theorem Akin.isCancelled (h : Akin lost w v) (token : Token) : v.isCancelled token = w.isCancelled token :=
  h.same (fun u : World => u.isCancelled token)

theorem Akin.published (h : Akin lost w v) :
    v.published.filter (!·.ofAssistant) = w.published.filter (!·.ofAssistant) :=
  h.same World.published

theorem Akin.operation (h : Akin lost w v) (op : Nat) :
    (v.operations[op]?).map (·.stripped (lost op)) = (w.operations[op]?).map (·.stripped (lost op)) := by
  have hop := h.same (fun u : World => u.operations[op]?)
  simpa [World.stripped, List.getElem?_mapIdx] using hop

/-- An operation is in both, with the same owner, and decided in both or in none. -/
theorem Akin.there (h : Akin lost w v) (ho : w.operations[op]? = some o) :
    ∃ o', v.operations[op]? = some o' ∧ o'.stripped (lost op) = o.stripped (lost op) ∧ o'.assistant = o.assistant := by
  have hop := h.operation op
  rw [ho, Option.map_some, Option.map_eq_some_iff] at hop
  obtain ⟨o', ho', hstripped⟩ := hop
  refine ⟨o', ho', hstripped, ?_⟩
  rw [← o'.stripped_assistant (lost op), hstripped, Operation.stripped_assistant]

/-- As long as it is not decided what the caller gets, the operation is the same in both. -/
theorem Akin.undecided (h : Akin lost w v) (ho : w.operations[op]? = some o) (hnot : o.decided? = none) :
    v.operations[op]? = some o := by
  obtain ⟨o', ho', hstripped, -⟩ := h.there ho
  have hdecided : (o'.stripped (lost op)).decided? = none := by rw [hstripped, Operation.stripped_decided?, hnot]; rfl
  rw [Operation.stripped_decided?, Option.map_eq_none_iff] at hdecided
  rw [Operation.stripped_of_undecided hnot, Operation.stripped_of_undecided hdecided] at hstripped
  rw [ho', hstripped]

/-- What the caller is to get is the same in both, unless the operation is lost. -/
theorem Akin.decided? (h : Akin lost w v) (hlost : lost op = false) : v.decided? op = w.decided? op := by
  have hop := congrArg (·.bind Operation.decided?) (h.operation op)
  simp only [hlost, Option.bind_map] at hop
  have hstripped : Operation.decided? ∘ (Operation.stripped false) = Operation.decided? := by
    funext o
    show (o.stripped false).decided? = o.decided?
    rw [Operation.stripped_decided?]
    exact Option.map_id'
  rw [hstripped] at hop
  exact hop

/-- What the caller is to get is decided in both or in none. -/
theorem Akin.undecided? (h : Akin lost w v) (op : Nat) : (v.decided? op).isNone = (w.decided? op).isNone := by
  have hstripped : ∀ u : World, (((u.operations[op]?).map (·.stripped (lost op))).bind (·.decided?)).isNone =
      (u.decided? op).isNone := by
    intro u
    rw [World.decided?]
    cases u.operations[op]? with
    | none => rfl
    | some o =>
      rw [Option.map_some, Option.bind_some, Option.bind_some, Operation.stripped_decided?, Option.isNone_map]
  rw [← hstripped, h.operation, hstripped]

/-! ### Changing an operation -/

/-- Changing one operation, as it shows when stripped. -/
theorem modifyOperation_stripped {f g : Operation → Operation}
    (hf : ∀ o, (f o).stripped (lost op) = g (o.stripped (lost op))) (w : World) :
    (w.modifyOperation op f).stripped lost = (w.stripped lost).modifyOperation op g := by
  have hops : (w.operations.modify op f).mapIdx (fun op o => o.stripped (lost op)) =
      (w.operations.mapIdx fun op o => o.stripped (lost op)).modify op g := by
    refine List.ext_getElem? fun i => ?_
    by_cases hi : op = i
    · subst hi
      cases h : w.operations[op]? with
      | none => simp [h]
      | some o => simp [h, hf]
    · simp [List.getElem?_modify_ne _ _ hi]
  simp only [stripped, modifyOperation, hops]

theorem setStage_stripped (w : World) (op : Nat) (stage : Stage) :
    (w.setStage op stage).stripped lost =
      (w.stripped lost).modifyOperation op fun o => ({ o with stage } : Operation).stripped (lost op) := by
  refine modifyOperation_stripped (fun o => ?_) w
  cases h : o.decided? with
  | none => rw [Operation.stripped_of_undecided h]
  | some answer => rw [Operation.stripped_of_decided h]

theorem Akin.setStage (h : Akin lost w v) (op : Nat) (stage : Stage) :
    Akin lost (w.setStage op stage) (v.setStage op stage) :=
  h.both (fun u => u.modifyOperation op fun o => ({ o with stage } : Operation).stripped (lost op))
    (setStage_stripped w op stage) (setStage_stripped v op stage) rfl rfl

/-- When an operation was done is of no account. -/
theorem complete_stripped (w : World) (op : Nat) (answer : Except Fault Answer) :
    (w.complete op answer).stripped lost =
      (w.stripped lost).setStage op (.done (if lost op then .error .interrupted else answer) 0) :=
  setStage_stripped w op (.done answer w.now)

theorem Akin.complete (h : Akin lost w v) (op : Nat) (answer : Except Fault Answer) :
    Akin lost (w.complete op answer) (v.complete op answer) :=
  h.both (fun u => u.setStage op _) (complete_stripped w op answer) (complete_stripped v op answer) rfl rfl

/-- The operation has begun for the assistant or for nobody. -/
def Owns (w : World) (op : Nat) (assistant : Option AssistantRecord) : Prop :=
  ∀ o, w.operations[op]? = some o → o.assistant = assistant

/-- Whoever waits for hooks is as good as done. -/
theorem relaying_stripped {assistant : Option AssistantRecord} {outcome : Except Fault Result} (howns : w.Owns op assistant)
    (telling : Nat) (queue : List Hook) :
    (w.setStage op (.relaying telling queue outcome)).stripped lost =
      (w.complete op (answerTo assistant outcome)).stripped lost := by
  rw [setStage_stripped, complete_stripped, setStage, modifyOperation, modifyOperation]
  congr 1
  refine List.ext_getElem? fun i => ?_
  by_cases hi : op = i
  · subst hi
    rw [List.getElem?_modify_eq, List.getElem?_modify_eq]
    refine Option.map_congr fun o hthere => ?_
    obtain ⟨o, ho, rfl⟩ : ∃ o', w.operations[op]? = some o' ∧ o'.stripped (lost op) = o := by
      simpa [stripped, List.getElem?_mapIdx] using hthere
    have hassistant : (o.stripped (lost op)).assistant = assistant := by rw [Operation.stripped_assistant, howns o ho]
    exact Operation.stripped_of_decided (by rw [← hassistant]; rfl) _
  · rw [List.getElem?_modify_ne _ _ hi, List.getElem?_modify_ne _ _ hi]

/-! ### What is told to listeners and hooks -/

/-- What changes nothing of the stripped world makes no difference. -/
theorem Akin.aside (h : Akin lost w v) (hw : w'.stripped lost = w.stripped lost)
    (hbus : w'.service.bus = w.service.bus) : Akin lost w' v :=
  ⟨fun stream => by rw [hbus]; exact h.passive stream, h.passive', hw.trans h.stripped⟩

theorem log_stripped (w : World) {e : Entry} (he : e.isTold = true) : (w.log e).stripped lost = w.stripped lost := by
  have hclock : (w.log e).clock.stripped = w.clock.stripped := by
    simp only [log, Clockwork.log, Clockwork.stripped]
    rw [List.filter_cons_of_neg (by rw [he]; decide)]
  simp only [stripped, hclock]
  rfl

theorem foldl_log_stripped {es : List Entry} (hes : ∀ e ∈ es, e.isTold = true) (w : World) :
    (es.foldl log w).stripped lost = w.stripped lost := by
  induction es generalizing w with
  | nil => rfl
  | cons e es ih =>
    obtain ⟨he, hes⟩ := List.forall_mem_cons.mp hes
    rw [List.foldl_cons, ih hes, log_stripped w he]

theorem foldl_log (es : List Entry) (w : World) :
    es.foldl log w = { w with clock := { w.clock with journal := es.reverse ++ w.clock.journal } } := by
  induction es generalizing w with
  | nil => rfl
  | cons e es ih =>
    rw [List.foldl_cons, ih]
    simp [log, Clockwork.log]

/-- **An event** is published, and all that comes of it where everyone who listens is passive is that each is told, in the
order in which they subscribed. -/
theorem fire_of_passive (h : w.Passive) (e : BusEvent) :
    w.fire e = ((w.service.bus.emitter e.stream).listeners.map fun l => Entry.event l.name e).foldl log
      { w with published := w.published ++ [e] } := by
  rw [List.foldl_map]
  refine List.foldl_ext _ _ _ fun u l hl => ?_
  obtain hreaction | hreaction := h e.stream l hl <;> rw [hreaction]

theorem fire_bus (h : w.Passive) (e : BusEvent) : (w.fire e).service.bus = w.service.bus := by
  rw [fire_of_passive h, foldl_log]

theorem fire_stripped (h : w.Passive) (e : BusEvent) :
    (w.fire e).stripped lost = { w.stripped lost with
      published := (w.stripped lost).published ++ [e].filter (!·.ofAssistant) } := by
  rw [fire_of_passive h, foldl_log_stripped]
  · simp only [stripped, List.filter_append]
  · intro entry hentry
    obtain ⟨l, -, rfl⟩ := List.mem_map.mp hentry
    rfl

theorem Akin.fire (h : Akin lost w v) (e : BusEvent) : Akin lost (w.fire e) (v.fire e) :=
  h.both (fun u => { u with published := u.published ++ [e].filter (!·.ofAssistant) }) (fire_stripped h.passive e)
    (fire_stripped h.passive' e) (fire_bus h.passive e) (fire_bus h.passive' e)

theorem announce_stripped (w : World) (hook : Hook) : (w.announce hook).stripped lost = w.stripped lost := by
  unfold announce
  split <;> rfl

theorem announce_bus (w : World) (hook : Hook) : (w.announce hook).service.bus = w.service.bus := by
  unfold announce
  split <;> rfl

theorem tellAll_stripped (w : World) : w.tellAll.stripped lost = w.stripped lost := by
  have htold : ∀ e ∈ w.tellings.flatMap (·.seen w.now), e.isTold = true := by
    intro e he
    obtain ⟨t, -, he⟩ := List.mem_flatMap.mp he
    rcases List.mem_append.mp he with he | he <;> split at he
    · cases he
    · rw [List.mem_singleton.mp he]; rfl
    · rw [List.mem_singleton.mp he]; rfl
    · cases he
  exact foldl_log_stripped htold w

theorem tellAll_bus (w : World) : w.tellAll.service.bus = w.service.bus := by
  unfold tellAll
  rw [foldl_log]

theorem unlisten_stripped (w : World) (name : String) : (w.unlisten name).stripped lost = w.stripped lost := by
  unfold unlisten
  split <;> rfl

theorem mem_modify {b : Bus} {s stream : Stream} {f : Emitter Listener → Emitter Listener} {l : Listener}
    (h : l ∈ ((b.modify s f).emitter stream).listeners) :
    l ∈ (b.emitter stream).listeners ∨ l ∈ (f (b.emitter s)).listeners := by
  cases s <;> cases stream <;> first | exact .inl h | exact .inr h

theorem Passive.listen (h : w.Passive) (stream : Stream) (name : String) {reaction : Option Reaction}
    (hreaction : Orchestra.Passive reaction) : (w.listen stream name reaction).Passive := by
  intro s l hl
  obtain hl | hl := mem_modify hl
  · exact h s l hl
  · obtain hl | hl := List.mem_append.mp hl
    · exact h stream l hl
    · rw [List.mem_singleton.mp hl]
      exact hreaction

theorem Passive.unlisten (h : w.Passive) (name : String) : (w.unlisten name).Passive := by
  unfold World.unlisten
  split
  · exact h
  · intro s l hl
    obtain hl | hl := mem_modify hl
    · exact h s l hl
    · exact h _ l (List.mem_of_mem_erase hl)

end World

end Orchestra
