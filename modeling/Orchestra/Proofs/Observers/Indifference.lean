import Orchestra.Proofs.Observers.Akin

/-!
# Orchestra.Proofs.Observers.Indifference — requests and everything else take the same course in akin worlds

What an operation does when it begins, gets on or is aborted, and what else is done to the service, comes to the same in
akin worlds.  Where one goes on to tell hooks of an outcome and the other gives it to the caller at once, what comes of
it is akin, for that is all the same without observers (`relay_akin`).
-/

namespace Orchestra

namespace Clockwork

variable {c c' : Clockwork} {t : Task}

/-! ### Tasks look at no journal -/

theorem finish_stripped (c : Clockwork) (t : Task) (last : Finish) :
    c.stripped.finish t last = (c.finish t last).stripped := by
  cases last with
  | provider index reply => rcases reply with f | f | r <;> rfl
  | prepare index reply => rcases reply with f | u <;> rfl
  | model _ _ _ _ | resolve _ | nothing => rfl

theorem cancel_stripped (c : Clockwork) (source : String) : c.stripped.cancel source = (c.cancel source).stripped := by
  rw [cancel_eq, cancel_eq c]
  unfold cancel
  split <;> split <;> first | rfl | contradiction

theorem play_stripped (c : Clockwork) (t : Task) (last : Finish) (moves : List Move) :
    c.stripped.play t last moves = (c.play t last moves).stripped := by
  induction moves generalizing c last with
  | nil => exact finish_stripped c t last
  | cons move rest ih =>
    cases move with
    | pause ticks => rfl
    | park => rfl
    | awaitCancellation =>
      have hcancelled : c.stripped.isCancelled t.token = c.isCancelled t.token := rfl
      rw [play, play, hcancelled]
      split
      · exact ih c last
      · rfl
    | cancel source => rw [play, play, cancel_stripped, ih]
    | checkpoint operation =>
      have hsources : c.stripped.cancelledSources = c.cancelledSources := rfl
      rw [play, play, hsources]
      split
      · exact finish_stripped c t _
      · exact ih c last

theorem log_stripped (c : Clockwork) {e : Entry} (he : e.isTold = false) : c.stripped.log e = (c.log e).stripped := by
  rw [log, log, stripped, stripped, List.filter_cons_of_pos (by rw [he]; rfl)]

theorem begin_stripped (c : Clockwork) (t : Task) (start : Start) :
    c.stripped.begin t start = (c.begin t start).stripped := by
  have hproviders : c.stripped.providers = c.providers := rfl
  have hcancelled : c.stripped.isCancelled t.token = c.isCancelled t.token := rfl
  cases start with
  | call index kind payload context =>
    simp only [begin, hproviders, hcancelled]
    split
    · next p _ =>
      have hnote : c.stripped.note index (fun r => { r with calls := r.calls + 1 }) =
          (c.note index fun r => { r with calls := r.calls + 1 }).stripped := rfl
      rw [hnote, log_stripped _ rfl, play_stripped]
    · next b _ =>
      split
      · rfl
      · have hmodify : c.stripped.modifyBridge index (fun b => { b with asked := b.asked + 1 }) =
            (c.modifyBridge index fun b => { b with asked := b.asked + 1 }).stripped := rfl
        rw [hmodify, log_stripped _ rfl, play_stripped]
        rfl
    · rfl
  | prepare index =>
    simp only [begin, hproviders]
    split
    · exact play_stripped c t _ _
    · rfl
  | resolve reply => exact play_stripped c t _ _

theorem goOn_stripped (c : Clockwork) (t : Task) : c.stripped.goOn t = (c.goOn t).stripped := by
  have hwithout : c.stripped.without t = (c.without t).stripped := rfl
  unfold goOn
  rw [hwithout]
  split
  · exact begin_stripped _ t _
  · exact play_stripped _ t _ _

/-- **A turn** comes to the same, whatever listeners and hooks have been told. -/
theorem step_stripped (c : Clockwork) : c.stripped.step = c.step.map stripped := by
  have hready : c.stripped.tasks.find? c.stripped.isReady = c.tasks.find? c.isReady := rfl
  cases h : c.tasks.find? c.isReady with
  | none => rw [step, step, hready, h]; rfl
  | some t =>
    rw [step_eq_some.mpr ⟨t, h, rfl⟩, step_eq_some.mpr ⟨t, hready.trans h, rfl⟩, goOn_stripped]
    rfl

theorem disposeProvider_stripped (c : Clockwork) (index : Nat) :
    c.stripped.disposeProvider index = ((c.disposeProvider index).1.stripped, (c.disposeProvider index).2) := by
  have hproviders : c.stripped.providers = c.providers := rfl
  simp only [disposeProvider, hproviders]
  split
  · next p _ => rw [log_stripped _ rfl]; rfl
  · rfl
  · rfl

end Clockwork

namespace World

variable {lost : Nat → Bool} {u v w w' v' : World} {op : Nat} {o : Operation} {assistant : Option AssistantRecord}
  {outcome : Except Fault Result}

/-! ### The parts of a world -/

/-- The service goes on in the same way, however that works without hooks and listeners. -/
theorem Akin.mapService (h : Akin lost w v) {f : Service → Service}
    (hf : ∀ s : Service, f { s with hooks := none, bus := {} } = { f s with hooks := none, bus := {} })
    (hbus : ∀ s, (f s).bus = s.bus) : Akin lost { w with service := f w.service } { v with service := f v.service } := by
  have hstripped : ∀ u : World, ({ u with service := f u.service } : World).stripped lost =
      { u.stripped lost with service := f (u.stripped lost).service } := by
    intro u
    have hu : f (u.stripped lost).service = { f u.service with hooks := none, bus := {} } := hf u.service
    rw [hu]
    rfl
  exact h.both (fun u => { u with service := f u.service }) (hstripped w) (hstripped v) (hbus _) (hbus _)

/-- Going on with clockworks that are the same when stripped. -/
theorem Akin.withClock (h : Akin lost w v) {c c' : Clockwork} (hc : c'.stripped = c.stripped) :
    Akin lost { w with clock := c } { v with clock := c' } := by
  have hv : ({ v with clock := c' } : World).stripped lost = { v.stripped lost with clock := c.stripped } := by
    rw [← hc]
    rfl
  exact h.both (fun u => { u with clock := c.stripped }) rfl hv rfl rfl

/-- Going on in the same way, however that works on clockworks without a journal. -/
theorem Akin.mapClock (h : Akin lost w v) {f : Clockwork → Clockwork}
    (hf : ∀ c : Clockwork, f c.stripped = (f c).stripped) :
    Akin lost { w with clock := f w.clock } { v with clock := f v.clock } := by
  refine h.withClock ?_
  rw [← hf, ← hf, h.clock]

/-! ### The end of an operation -/

theorem Akin.owns (h : Akin lost w v) (howns : w.Owns op assistant) : v.Owns op assistant := by
  intro o ho
  obtain ⟨o', ho', -, hassistant⟩ := h.symm.there ho
  rw [← hassistant]
  exact howns o' ho'

/-- **Concluding** comes to completing: what the assistant tells of it is of no account. -/
theorem conclude_akin (h : w.Passive) (ha : Foreign assistant) (op : Nat) (outcome : Except Fault Result) :
    Akin lost (w.complete op (answerTo assistant outcome)) (w.conclude op assistant outcome) := by
  have hrefl : Akin lost w w := .refl h
  obtain ⟨-, hconclude⟩ | ⟨a, rfl, -, hconclude⟩ := w.conclude_cases op assistant outcome
  · rw [hconclude]
    exact hrefl.complete op _
  · rw [hconclude]
    have hassistant : (a.event (answerTo (some a) outcome) (w.now - a.startedAt)).ofAssistant = true := by
      rw [BusEvent.ofAssistant, AssistantRecord.event_id?, Option.any_some, ha a rfl, beq_self_eq_true]
    refine (hrefl.aside ?_ (fire_bus h _)).symm.complete op _
    rw [fire_stripped h, List.filter_cons_of_neg (by rw [hassistant]; decide), List.filter_nil, List.append_nil]

/-- **Whether hooks are told** of an outcome one by one, or the caller is given it at once, comes to the same. -/
theorem relay_akin (h : w.Passive) (ha : Foreign assistant) (howns : w.Owns op assistant) (outcome : Except Fault Result)
    (queue : List Hook) :
    Akin lost (w.complete op (answerTo assistant outcome)) (w.relay op assistant outcome queue) := by
  induction queue generalizing w with
  | nil => exact conclude_akin h ha op outcome
  | cons hook rest ih =>
    rw [relay_cons]
    split
    · exact conclude_akin h ha op outcome
    · next hooks _ =>
      have hlogged : Akin lost w (w.log (.hook hook)) := ⟨h, h, (log_stripped w rfl).symm⟩
      split
      · exact (hlogged.complete op _).trans (ih h howns)
      · -- the operation waits for the hook, and the stripped world does not
        have htold : Akin lost w (w.tell hook (hooks.delay w.told hook)).1 := ⟨h, h, (log_stripped w rfl).symm⟩
        have howns' : (w.tell hook (hooks.delay w.told hook)).1.Owns op assistant := howns
        refine (htold.complete op _).trans ?_
        exact ⟨h, h, (relaying_stripped howns' _ _).symm⟩

theorem Akin.countFailure (h : Akin lost w v) (record : RequestRecord) (f : Fault) :
    Akin lost (w.countFailure record f) (v.countFailure record f) := by
  unfold World.countFailure
  rw [h.now]
  exact Akin.fire (h.mapService (f := fun s => { s with errors := s.errors + 1 }) (fun _ => rfl) fun _ => rfl) _

/-- A decided request. -/
theorem Akin.decide (h : Akin lost w v) (ha : Foreign assistant) (howns : w.Owns op assistant) (record : RequestRecord)
    (outcome : Except Fault Result) :
    Akin lost (w.decide op assistant record outcome) (v.decide op assistant record outcome) := by
  -- what is counted and published is the same, and so is what the caller gets
  have hrelay : ∀ {w' v' : World} {standing : Except Fault Result} (queue queue' : List Hook), Akin lost w' v' →
      w'.operations = w.operations →
      Akin lost (w'.relay op assistant standing queue) (v'.relay op assistant standing queue') := by
    intro w' v' standing queue queue' h' hops
    have howns' : w'.Owns op assistant := fun o ho => howns o (hops ▸ ho)
    exact ((relay_akin h'.passive ha howns' standing queue).symm.trans (h'.complete op _)).trans
      (relay_akin h'.passive' ha (h'.owns howns') standing queue')
  cases outcome with
  | ok r =>
    show Akin lost ((w.countSuccess record r).relay op assistant (w.handed r) _)
      ((v.countSuccess record r).relay op assistant (v.handed r) _)
    rw [h.handed]
    refine hrelay _ _ ?_ (told_countSuccess w record r).operations
    unfold countSuccess
    rw [h.now]
    exact Akin.fire (h.mapService (f := fun s =>
      { s with successes := s.successes + 1, busy := s.busy + (w.now - record.startedAt) })
      (fun _ => rfl) fun _ => rfl) _
  | error f => exact hrelay _ _ (h.countFailure record f) (told_countFailure w record f).operations

/-! ### The beginning of an operation -/

theorem asked_stripped (w : World) (op : Nat) (operation : String) (kind : Capability) :
    (w.asked op operation kind).stripped lost = (w.stripped lost).asked op operation kind := by
  refine modifyOperation_stripped (fun o => ?_) (w.newRequest operation kind).1
  cases h : o.decided? with
  | none =>
    have hasked : ({ o with request := some (w.newRequest operation kind).2 } : Operation).decided? = none := h
    rw [Operation.stripped_of_undecided h, Operation.stripped_of_undecided hasked]
    rfl
  | some answer =>
    have hasked : ({ o with request := some (w.newRequest operation kind).2 } : Operation).decided? = some answer := h
    rw [Operation.stripped_of_decided h, Operation.stripped_of_decided hasked]
    rfl

theorem Akin.asked (h : Akin lost w v) (op : Nat) (operation : String) (kind : Capability) :
    Akin lost (w.asked op operation kind) (v.asked op operation kind) :=
  h.both (fun u => u.asked op operation kind) (asked_stripped w op operation kind) (asked_stripped v op operation kind)
    rfl rfl

theorem Owns.asked (h : w.Owns op assistant) (operation : String) (kind : Capability) :
    (w.asked op operation kind).Owns op assistant := by
  intro o ho
  have ho : (w.operations.modify op _)[op]? = some o := ho
  rw [List.getElem?_modify_eq, Option.map_eq_map, Option.map_eq_some_iff] at ho
  obtain ⟨o', ho', rfl⟩ := ho
  exact h o' ho'

/-- A fan-out that is launched. -/
theorem Akin.launched (h : Akin lost w v) (hnext : v.clock.nextTask = w.clock.nextTask) (op : Nat) (kind : Capability)
    (payload : Payload) (context : Context) (token : Token) (ps : List ProviderRef) (policy : Policy) :
    Akin lost
      ({ w with clock := w.clock.calling kind payload context token ps }.setStage op
        (.flying ⟨kind, policy, ps.zipIdx w.clock.nextTask⟩))
      ({ v with clock := v.clock.calling kind payload context token ps }.setStage op
        (.flying ⟨kind, policy, ps.zipIdx v.clock.nextTask⟩)) := by
  rw [hnext]
  exact (h.mapClock (f := fun c => c.calling kind payload context token ps) fun _ => rfl).setStage op _

theorem Akin.nextTask (h : Akin lost w v) : v.clock.nextTask = w.clock.nextTask :=
  h.same fun u : World => u.clock.nextTask

/-- Whether a fan-out is refused, and whom it invites. -/
theorem Akin.invited (h : Akin lost w v) (kind : Capability) (token : Token) :
    FanOut.invited v.service.ledger.registry kind (v.isCancelled token) =
      FanOut.invited w.service.ledger.registry kind (w.isCancelled token) := by
  rw [h.ledger, h.isCancelled]

/-- **A request.** -/
theorem Akin.request (h : Akin lost w v) (ha : Foreign assistant) (howns : w.Owns op assistant) (token : Token)
    (operation : String) (kind : Capability) (payload : Payload) (context : Option Context) :
    Akin lost (w.request op assistant token operation kind payload context)
      (v.request op assistant token operation kind payload context) := by
  have hinvited := h.invited kind token
  have hrecord : (v.newRequest operation kind).2 = (w.newRequest operation kind).2 :=
    h.same fun u => (u.newRequest operation kind).2
  have hasked := h.asked op operation kind
  cases hw : FanOut.invited w.service.ledger.registry kind (w.isCancelled token) with
  | error f =>
    rw [request_refused hw, request_refused (hinvited.trans hw), hrecord]
    exact hasked.decide ha (howns.asked operation kind) _ _
  | ok ps =>
    rw [request_launched hw, request_launched (hinvited.trans hw), h.context, h.config]
    exact hasked.launched h.nextTask op kind payload _ token ps _

theorem Akin.send (h : Akin lost w v) (ha : Foreign assistant) (howns : w.Owns op assistant) (token : Token)
    (context : Context) (ask : Ask) :
    Akin lost (w.send op assistant token context ask) (v.send op assistant token context ask) := by
  cases ask with
  | context => exact h.complete op _
  | chat message => exact h.request ha howns token _ _ _ _
  | edit path range instruction options => exact h.request ha howns token _ _ _ _

theorem Akin.conclude (h : Akin lost w v) (ha : Foreign assistant) (op : Nat) (outcome : Except Fault Result) :
    Akin lost (w.conclude op assistant outcome) (v.conclude op assistant outcome) :=
  ((conclude_akin h.passive ha op outcome).symm.trans (h.complete op _)).trans (conclude_akin h.passive' ha op outcome)

/-- What is not ready to be sent cannot be, or waits for the workspace. -/
theorem unready_cases {extras : Extras} (h : w.readyContext? extras = none) :
    (∃ f, w.service.context.current.overlay extras.toChanges = .error f) ∨
    ∃ context reply, w.service.context.current.overlay extras.toChanges = .ok context ∧ context.workspace = none ∧
      w.resolver = some reply := by
  unfold readyContext? at h
  split at h
  · next f hoverlay => exact .inl ⟨f, hoverlay⟩
  · next context hoverlay =>
    split at h
    · next hwaits =>
      rw [Bool.and_eq_true, Option.isNone_iff_eq_none, Option.isSome_iff_exists] at hwaits
      obtain ⟨hworkspace, reply, hreply⟩ := hwaits
      exact .inr ⟨context, reply, hoverlay, hworkspace, hreply⟩
    · cases h

theorem prepare_resolving {extras : Extras} {context : Context} {reply : Reply Workspace}
    (hoverlay : w.service.context.current.overlay extras.toChanges = .ok context) (hworkspace : context.workspace = none)
    (hreply : w.resolver = some reply) (op : Nat) (assistant : Option AssistantRecord) (token : Token) (ask : Ask) :
    w.prepare op assistant token extras ask =
      { w with clock := (w.clock.spawn .none (.resolve reply)).1 }.setStage op
        (.resolving context ask w.clock.nextTask) := by
  unfold World.prepare
  simp only [hoverlay, hworkspace, hreply, Clockwork.spawn]

theorem Akin.prepare (h : Akin lost w v) (ha : Foreign assistant) (howns : w.Owns op assistant) (token : Token)
    (extras : Extras) (ask : Ask) :
    Akin lost (w.prepare op assistant token extras ask) (v.prepare op assistant token extras ask) := by
  have hready : v.readyContext? extras = w.readyContext? extras := h.same fun u => u.readyContext? extras
  have hcontext := h.context
  cases hw : w.readyContext? extras with
  | some context =>
    rw [prepare_ready hw, prepare_ready (hready.trans hw)]
    exact h.send ha howns token context ask
  | none =>
    obtain ⟨f, hoverlay⟩ | ⟨context, reply, hoverlay, hworkspace, hreply⟩ := unready_cases hw
    · have hconclude : ∀ u : World, u.service.context = w.service.context →
          u.prepare op assistant token extras ask = u.conclude op assistant (.error f) := by
        intro u hu
        rw [World.prepare, hu, hoverlay]
      rw [hconclude w rfl, hconclude v hcontext]
      exact h.conclude ha op _
    · have hreply' : v.resolver = some reply := (h.same World.resolver).trans hreply
      rw [prepare_resolving hoverlay hworkspace hreply, prepare_resolving (hcontext ▸ hoverlay) hworkspace hreply',
        h.nextTask]
      exact (h.mapClock (f := fun c => (c.spawn .none (.resolve reply)).1) fun _ => rfl).setStage op _

theorem Akin.entered (h : Akin lost w v) (token : Token) : Akin lost (w.entered token) (v.entered token) := by
  have hstripped : ∀ u : World, (u.entered token).stripped lost = { u.stripped lost with
      operations := (u.stripped lost).operations ++ [{ token, stage := .done (.error .interrupted) 0 }] } := by
    intro u
    simp only [World.entered, World.stripped, List.mapIdx_concat, Operation.stripped, Operation.decided?, ite_self]
  exact h.both (fun u => { u with operations := u.operations ++ [{ token, stage := .done (.error .interrupted) 0 }] })
    (hstripped w) (hstripped v) rfl rfl

/-- The operation that has begun last. -/
theorem owns_last (hops : v.operations = w.operations ++ [o]) (ha : o.assistant = assistant) :
    v.Owns w.operations.length assistant := by
  intro o' ho
  rw [hops, List.getElem?_concat_length] at ho
  cases ho
  exact ha

theorem Akin.assigned (h : Akin lost w v) (token : Token) (a : Assignment) :
    Akin lost (w.assigned token a) (v.assigned token a) := by
  have hrecord : v.recordOf a = w.recordOf a := h.same fun u => u.recordOf a
  have hstripped : ∀ u : World, u.recordOf a = w.recordOf a → (u.assigned token a).stripped lost =
      { u.stripped lost with
        operations := (u.stripped lost).operations ++
          [{ token, assistant := some (w.recordOf a), stage := .done (.error .interrupted) 0 }]
        assistantIds := { (u.stripped lost).assistantIds with issued := (u.stripped lost).assistantIds.issued + 1 } } := by
    intro u hu
    simp only [World.assigned, hu, World.stripped, List.mapIdx_concat, Operation.stripped, Operation.decided?, ite_self]
  exact h.both (fun u => { u with
      operations := u.operations ++
        [{ token, assistant := some (w.recordOf a), stage := .done (.error .interrupted) 0 }]
      assistantIds := { u.assistantIds with issued := u.assistantIds.issued + 1 } })
    (hstripped w rfl) (hstripped v hrecord) rfl rfl

/-- **An operation that begins.** -/
theorem Akin.begin (h : Akin lost w v) (hids : w.assistantIds.source = RequestIds.assistant.source) (order : Order)
    (token : Token) : Akin lost (w.begin order token).1 (v.begin order token).1 := by
  have hnobody : Foreign none := nofun
  have hentered := h.entered token
  have howns : (w.entered token).Owns w.operations.length none := owns_last rfl rfl
  cases order with
  | bare kind payload context =>
    have hinvited := h.invited kind token
    cases hw : FanOut.invited w.service.ledger.registry kind (w.isCancelled token) with
    | error f =>
      rw [begin_bare_refused hw, begin_bare_refused (hinvited.trans hw), h.length]
      exact hentered.complete _ _
    | ok ps =>
      rw [begin_bare_launched hw, begin_bare_launched (hinvited.trans hw), h.config, h.length]
      exact hentered.launched h.nextTask _ kind payload context token ps _
  | service operation kind payload context =>
    show Akin lost ((w.entered token).request w.operations.length none token operation kind payload context)
      ((v.entered token).request v.operations.length none token operation kind payload context)
    rw [h.length]
    exact hentered.request hnobody howns token operation kind payload context
  | assistant a =>
    have hrecord : v.recordOf a = w.recordOf a := h.same fun u => u.recordOf a
    have hforeign : Foreign (some (w.recordOf a)) := fun _ ha => by cases ha; exact hids
    have howns' : (w.assigned token a).Owns w.operations.length (some (w.recordOf a)) := owns_last rfl rfl
    rw [begin_assistant, begin_assistant, h.length, hrecord]
    exact (h.assigned token a).prepare hforeign howns' token a.extras a.ask
  | context extras =>
    show Akin lost ((w.entered token).prepare w.operations.length none token extras .context)
      ((v.entered token).prepare v.operations.length none token extras .context)
    rw [h.length]
    exact hentered.prepare hnobody howns token extras .context

/-! ### An operation that gets on or is aborted -/

theorem owns_of (ho : w.operations[op]? = some o) : w.Owns op o.assistant := by
  intro o' ho'
  cases ho.symm.trans ho'
  rfl

/-- Completing what is decided makes no difference, unless it is with another answer. -/
theorem complete_decided {answer answer' : Except Fault Answer} (ho : w.operations[op]? = some o)
    (hd : o.decided? = some answer) (hanswer : lost op = true ∨ answer' = answer) :
    (w.complete op answer').stripped lost = w.stripped lost := by
  have hstage : Stage.done (if lost op then .error .interrupted else answer') 0 = (o.stripped (lost op)).stage := by
    rw [Operation.stripped_of_decided hd]
    obtain hlost | rfl := hanswer
    · rw [hlost]; rfl
    · rfl
  have hthere : (w.stripped lost).operations[op]? = some (o.stripped (lost op)) := by
    simp [stripped, List.getElem?_mapIdx, ho]
  have hops : (w.stripped lost).operations.modify op (fun o' => { o' with stage := (o.stripped (lost op)).stage }) =
      (w.stripped lost).operations := by
    refine List.ext_getElem? fun i => ?_
    by_cases hi : op = i
    · subst hi
      rw [List.getElem?_modify_eq, hthere]
      rfl
    · rw [List.getElem?_modify_ne _ _ hi]
  rw [complete_stripped, hstage]
  unfold World.setStage modifyOperation
  rw [hops]

/-- What is not decided gets on in both or in none, and in the same way. -/
theorem Akin.resume (h : Akin lost w v) (ha : Foreign o.assistant) (ho : w.operations[op]? = some o)
    (hnot : o.decided? = none) : Option.Rel (Akin lost) (w.resume op o) (v.resume op o) := by
  have howns := owns_of ho
  cases hstage : o.stage with
  | resolving context ask task =>
    have hending : v.clock.ending? task = w.clock.ending? task := h.same fun u => u.clock.ending? task
    simp only [World.resume, hstage, hending]
    split
    · exact .none
    · exact .some (h.conclude ha op _)
    · exact .some (h.send ha howns _ _ ask)
    · exact .some (h.send ha howns _ _ ask)
  | flying flight =>
    have hlook : flight.look v.clock o.token = flight.look w.clock o.token := h.same fun u => flight.look u.clock o.token
    simp only [World.resume, hstage, hlook]
    cases flight.look w.clock o.token with
    | none => exact .none
    | some outcome =>
      cases hrequest : o.request with
      | none => exact .some (h.complete op _)
      | some record => exact .some (h.decide ha howns record outcome)
  | relaying telling queue outcome => rw [Operation.decided?, hstage] at hnot; cases hnot
  | done answer tick => rw [Operation.decided?, hstage] at hnot; cases hnot

/-- An operation that waits for hooks gets on, and that makes no difference. -/
theorem resume_akin {answer : Except Fault Answer} (h : w.Passive) (ha : Foreign o.assistant)
    (ho : w.operations[op]? = some o) (hd : o.decided? = some answer) (hv : w.resume op o = some v) : Akin lost w v := by
  cases resume_resumes hv with
  | cutShort stage _ | sends stage | lands stage _ _ | decides stage _ _ =>
    rw [Operation.decided?, stage] at hd
    cases hd
  | @relays telling queue outcome stage =>
    have hcomplete : (w.complete op (answerTo o.assistant outcome)).stripped lost = w.stripped lost :=
      complete_decided ho (by rw [Operation.decided?, stage]) (.inr rfl)
    have hdone : Akin lost w (w.complete op (answerTo o.assistant outcome)) := ⟨h, h, hcomplete.symm⟩
    exact hdone.trans (relay_akin h ha (owns_of ho) outcome queue)

theorem occur_resume_akin {answer : Except Fault Answer} (h : w.Passive) (ha : Foreign o.assistant)
    (ho : w.operations[op]? = some o) (hd : o.decided? = some answer) : Akin lost w (w.occur (.resume op)) := by
  rw [occur, ho, Option.bind_some]
  cases hr : w.resume op o with
  | none => exact .refl h
  | some v => exact resume_akin h ha ho hd hr

theorem Akin.missing (h : Akin lost w v) (hnone : w.operations[op]? = none) : v.operations[op]? = none := by
  have hop := h.operation op
  rw [hnone] at hop
  exact Option.map_eq_none_iff.mp hop

/-- What is decided in one is decided in the other. -/
theorem Akin.decided (h : Akin lost w v) {answer : Except Fault Answer} (ho : w.operations[op]? = some o)
    (hd : o.decided? = some answer) :
    ∃ o' answer', v.operations[op]? = some o' ∧ o'.decided? = some answer' ∧ o'.assistant = o.assistant := by
  obtain ⟨o', ho', hstripped, hassistant⟩ := h.there ho
  cases hd' : o'.decided? with
  | some answer' => exact ⟨o', answer', ho', hd', hassistant⟩
  | none =>
    have hsame := h.symm.undecided ho' hd'
    cases ho.symm.trans hsame
    rw [hd] at hd'
    cases hd'

/-- **An operation that gets on.** -/
theorem Akin.occur_resume (h : Akin lost w v) (hforeign : ∀ o ∈ w.operations, Foreign o.assistant) (op : Nat) :
    Akin lost (w.occur (.resume op)) (v.occur (.resume op)) := by
  cases ho : w.operations[op]? with
  | none =>
    rw [occur, occur, ho, h.missing ho]
    exact h
  | some o =>
    have ha := hforeign o (List.mem_of_getElem? ho)
    cases hd : o.decided? with
    | none =>
      have hresume := h.resume ha ho hd
      rw [occur, occur, ho, h.undecided ho hd, Option.bind_some, Option.bind_some]
      generalize w.resume op o = w', v.resume op o = v' at hresume ⊢
      cases hresume with
      | none => exact h
      | some hakin => exact hakin
    | some answer =>
      obtain ⟨o', answer', ho', hd', hassistant⟩ := h.decided ho hd
      exact ((occur_resume_akin h.passive ha ho hd).symm.trans h).trans
        (occur_resume_akin h.passive' (hassistant ▸ ha) ho' hd')

/-- Where an outcome stands, the caller of an operation that is aborted gets it or loses it, and if that does not matter,
nothing else is different. -/
theorem abort_akin {answer : Except Fault Answer} (hlost : lost op = true) (h : w.Passive) (ha : Foreign o.assistant)
    (ho : w.operations[op]? = some o) (hd : o.decided? = some answer) : Akin lost w (w.abort op) := by
  have habort := w.abort_aborts op
  generalize w.abort op = v at habort ⊢
  cases habort with
  | idle _ => exact .refl h
  | resolving there stage | flying there stage _ | requesting there stage _ =>
    cases ho.symm.trans there
    rw [Operation.decided?, stage] at hd
    cases hd
  | @relaying _ telling _ _ there stage =>
    cases ho.symm.trans there
    have hpassive : (w.hush telling).Passive := h
    have hdone : Akin lost w ((w.hush telling).complete op (answerTo o.assistant (.error .interrupted))) :=
      ⟨h, h, (complete_decided (w := w.hush telling) ho hd (.inl hlost)).symm⟩
    exact hdone.trans (conclude_akin hpassive ha op _)

/-- **An operation that is aborted** comes to the same, if it does not matter what is lost on the caller once an outcome
stands. -/
theorem Akin.abort (h : Akin lost w v) (hforeign : ∀ o ∈ w.operations, Foreign o.assistant)
    (hloses : (w.decided? op).isSome → lost op = true) : Akin lost (w.abort op) (v.abort op) := by
  cases ho : w.operations[op]? with
  | none =>
    have hnone : ∀ u : World, u.operations[op]? = none → u.abort op = u := fun u hu =>
      abort_of_done fun o ho => by rw [hu] at ho; cases ho
    rw [hnone w ho, hnone v (h.missing ho)]
    exact h
  | some o =>
    have ha := hforeign o (List.mem_of_getElem? ho)
    cases hd : o.decided? with
    | some answer =>
      obtain ⟨o', answer', ho', hd', hassistant⟩ := h.decided ho hd
      have hlost := hloses (by rw [World.decided?, ho, Option.bind_some, hd]; rfl)
      exact ((abort_akin hlost h.passive ha ho hd).symm.trans h).trans
        (abort_akin hlost h.passive' (hassistant ▸ ha) ho' hd')
    | none =>
      have ho' := h.undecided ho hd
      unfold World.abort
      rw [ho, ho']
      dsimp only
      cases hstage : o.stage with
      | resolving context ask task =>
        exact Akin.conclude (h.mapClock (f := fun c => c.kill task) fun _ => rfl) ha op _
      | flying flight =>
        cases hrequest : o.request with
        | none => exact h.complete op _
        | some record =>
          have hcounted : Akin lost (w.countFailure record .interrupted) (v.countFailure record .interrupted) :=
            h.countFailure record _
          have hannounced : ∀ {u : World} (hook : Hook), u.Passive → Akin lost u (u.announce hook) := fun hook hu =>
            ((Akin.refl hu).aside (announce_stripped _ hook) (announce_bus _ hook)).symm
          exact Akin.conclude (((hannounced _ hcounted.passive).symm.trans hcounted).trans
            (hannounced _ hcounted.passive')) ha op _
      | relaying telling queue outcome => rw [Operation.decided?, hstage] at hd; cases hd
      | done answer tick => rw [Operation.decided?, hstage] at hd; cases hd

end World

end Orchestra
