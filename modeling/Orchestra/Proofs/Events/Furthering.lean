import Orchestra.Proofs.Events.Interruption
import Orchestra.Proofs.Events.Silence
import Orchestra.Proofs.Runs.Frame

/-!
# Orchestra.Proofs.Events.Furthering — how an operation gets on, and what it announces

An operation of the assistant announces its outcome by an event of its own, under its own id and name, when it is done
(`Operation.announcement`).  Whatever takes an operation further publishes just what the operation announces from then on
(`Furthers`), and what comes of it is an interruption only if the task of the operation was cancelled.
-/

namespace Orchestra

/-! ### Announcements -/

/-- The outcome of the operation, as far as it stands, is that its task was cancelled. -/
def Stage.Interrupted : Stage → Prop
  | .relaying _ _ outcome => outcome = .error .interrupted
  | .done outcome _ => outcome = .error .interrupted
  | _ => False

namespace Operation

variable {o : Operation}

/-- What an operation of the assistant has told listeners under its own id: nothing until it is done, and its outcome from
then on, unless its task was cancelled. -/
def announcement (o : Operation) : List BusEvent :=
  match o.assistant, o.stage with
  | some _, .done (.error .interrupted) _ => []
  | some a, .done outcome tick => [a.event outcome (tick - a.startedAt)]
  | _, _ => []

theorem announcement_of_service (h : o.assistant = none) : o.announcement = [] := by
  unfold announcement
  rw [h]

theorem announcement_of_interrupted {tick : Tick} (h : o.stage = .done (.error .interrupted) tick) :
    o.announcement = [] := by
  unfold announcement
  rw [h]
  cases o.assistant <;> rfl

theorem announcement_of_not_done (h : ∀ outcome tick, o.stage ≠ .done outcome tick) : o.announcement = [] := by
  unfold announcement
  split
  · rfl
  · next hs => exact absurd hs (h _ _)
  · rfl

theorem announcement_of_done {a : AssistantRecord} {outcome : Except Fault Answer} {tick : Tick}
    (ha : o.assistant = some a) (hs : o.stage = .done outcome tick) (hne : outcome ≠ .error .interrupted) :
    o.announcement = [a.event outcome (tick - a.startedAt)] := by
  unfold announcement
  rw [ha, hs]
  split
  · next heq => cases heq; exact absurd rfl hne
  · next ha' hs' => cases ha'; cases hs'; rfl
  · next h => exact absurd rfl (h a outcome tick rfl)

/-- An operation of the assistant sends a request: it has one to send while it looks up its workspace, and has sent it
once providers are at work. -/
def Sends (o : Operation) : Prop :=
  o.assistant.isSome = true →
    match o.stage with
    | .resolving _ ask _ => ask ≠ .context
    | .flying _ => o.request.isSome = true
    | _ => True

theorem sends_of_done {outcome : Except Fault Answer} {tick : Tick} (h : o.stage = .done outcome tick) : o.Sends := by
  intro
  rw [h]
  trivial

/-- What becomes of an operation that was taken further: whose it is, what it has announced, and that nothing but what is
named here can have interrupted it. -/
structure Furthered (assistant : Option AssistantRecord) (cut : Prop) (said : List BusEvent) (o : Operation) : Prop where
  assistant : o.assistant = assistant
  sends : o.Sends
  interrupted : o.stage.Interrupted → cut
  announcement : o.announcement = said

theorem furthered_launched {assistant : Option AssistantRecord} (ha : o.assistant = assistant) (record : RequestRecord)
    (flight : Flight) : ({ o with request := some record, stage := .flying flight } : Operation).Furthered assistant False
      [] :=
  ⟨ha, fun _ => rfl, id, announcement_of_not_done fun _ _ h => by cases h⟩

end Operation

namespace World

open Books

variable {u v w : World} {op : Nat} {assistant : Option AssistantRecord} {a : AssistantRecord} {cut : Prop}
  {outcome : Except Fault Result} {stage : Stage}

/-- The events of operations of the assistant, in order. -/
def announced (w : World) : List BusEvent := w.published.filter (·.ofAssistant)

theorem announced_eq (w : World) : w.announced = w.answers.filter (·.ofAssistant) := by
  rw [announced, answers, List.filter_filter]
  refine List.filter_congr fun e _ => ?_
  unfold BusEvent.ofAssistant
  cases e.id? <;> simp

theorem Silent.announced (h : Silent w v) : v.announced = w.announced := by
  rw [announced_eq, announced_eq, h.answers]

theorem fire_announced (w : World) {e : BusEvent} {id : RequestId} (hid : e.id? = some id) :
    (w.fire e).announced = w.announced ++ if id.source = RequestIds.assistant.source then [e] else [] := by
  have hof : e.ofAssistant = (id.source == RequestIds.assistant.source) := by
    rw [BusEvent.ofAssistant, hid, Option.any_some]
  rw [announced_eq, announced_eq, fire_answers w hid, List.filter_append]
  split
  · next hs => rw [List.filter_cons_of_pos (by rw [hof]; exact beq_iff_eq.mpr hs), List.filter_nil]
  · next hs => rw [List.filter_cons_of_neg (by rw [hof]; exact mt beq_iff_eq.mp hs), List.filter_nil]

/-- An operation was taken further: no other changed, and what it announces from now on was published by it now. -/
structure Furthers (op : Nat) (assistant : Option AssistantRecord) (cut : Prop) (w v : World) : Prop where
  went : ∃ (f : Operation → Operation) (said : List BusEvent), v.operations = w.operations.modify op f ∧
    v.announced = w.announced ++ said ∧ ∀ o, o.assistant = assistant → (f o).Furthered assistant cut said
  assistantIds : v.assistantIds = w.assistantIds

theorem Furthers.mono {cut' : Prop} (h : Furthers op assistant cut w v) (himp : cut → cut') :
    Furthers op assistant cut' w v := by
  obtain ⟨f, said, hops, hannounced, hf⟩ := h.went
  refine ⟨⟨f, said, hops, hannounced, fun o ho => ?_⟩, h.assistantIds⟩
  have hfurthered := hf o ho
  exact ⟨hfurthered.assistant, hfurthered.sends, himp ∘ hfurthered.interrupted, hfurthered.announcement⟩

/-- Before an operation is taken further, a request of it may have been noted, and anything else that announces nothing. -/
theorem Furthers.after {g : Operation → Operation} (h : Furthers op assistant cut v u)
    (hops : v.operations = w.operations.modify op g) (hg : ∀ o, (g o).assistant = o.assistant)
    (hannounced : v.announced = w.announced) (hids : v.assistantIds = w.assistantIds) :
    Furthers op assistant cut w u := by
  obtain ⟨f, said, hops', hannounced', hf⟩ := h.went
  refine ⟨⟨f ∘ g, said, ?_, ?_, fun o ho => hf (g o) ((hg o).trans ho)⟩, h.assistantIds.trans hids⟩
  · rw [hops', hops, List.modify_modify_eq]
  · rw [hannounced', hannounced]

theorem Furthers.after_told (h : Furthers op assistant cut v u) (htold : Told w v) (hannounced : v.announced = w.announced)
    (hids : v.assistantIds = w.assistantIds) : Furthers op assistant cut w u :=
  h.after (g := id) (htold.operations.trans (List.modify_id _ _).symm) (fun _ => rfl) hannounced hids

theorem Furthers.after_clock (clock : Clockwork) (h : Furthers op assistant cut { w with clock } u) :
    Furthers op assistant cut w u :=
  h.after (List.modify_id _ _).symm (fun _ => rfl) rfl rfl

/-! ### Stages -/

/-- An operation reaches a stage in which it is not yet done. -/
theorem furthers_setStage (w : World) (op : Nat) (hstage : ∀ outcome tick, stage ≠ .done outcome tick)
    (hsends : ∀ o : Operation, o.assistant = assistant → ({ o with stage } : Operation).Sends)
    (hcut : stage.Interrupted → cut) : Furthers op assistant cut w (w.setStage op stage) :=
  ⟨⟨fun o => { o with stage }, [], rfl, (List.append_nil _).symm, fun o ho =>
    ⟨ho, hsends o ho, hcut, Operation.announcement_of_not_done hstage⟩⟩, rfl⟩

/-- An operation is done that announces nothing. -/
theorem furthers_complete (w : World) (op : Nat) {answer : Except Fault Answer}
    (hnone : assistant = none ∨ answer = .error .interrupted) (hcut : answer = .error .interrupted → cut) :
    Furthers op assistant cut w (w.complete op answer) := by
  refine ⟨⟨fun o => { o with stage := .done answer w.now }, [], rfl, (List.append_nil _).symm, fun o ho =>
    ⟨ho, Operation.sends_of_done rfl, hcut, ?_⟩⟩, rfl⟩
  rcases hnone with rfl | rfl
  · exact Operation.announcement_of_service ho
  · exact Operation.announcement_of_interrupted rfl

/-- **An operation of the assistant** announces what the caller gets. -/
theorem furthers_announce (ha : a.id.source = RequestIds.assistant.source) (w : World) (op : Nat)
    {answer : Except Fault Answer} (hne : answer ≠ .error .interrupted) :
    Furthers op (some a) cut w ((w.fire (a.event answer (w.now - a.startedAt))).complete op answer) := by
  let said : List BusEvent := [a.event answer (w.now - a.startedAt)]
  have htold := told_fire w (a.event answer (w.now - a.startedAt))
  have hnow : (w.fire (a.event answer (w.now - a.startedAt))).now = w.now := by
    obtain ⟨journal, hclock⟩ := htold.clock
    rw [now, hclock]
    rfl
  have hannounced : (w.fire (a.event answer (w.now - a.startedAt))).announced = w.announced ++ said := by
    rw [fire_announced w (a.event_id? _ _), if_pos ha]
  refine ⟨⟨fun o => { o with stage := .done answer w.now }, said, ?_, hannounced, fun o ho =>
    ⟨ho, Operation.sends_of_done rfl, fun h => absurd h hne, Operation.announcement_of_done ho rfl hne⟩⟩, ?_⟩
  · show (w.fire _).operations.modify op _ = _
    rw [htold.operations, hnow]
  · exact congrArg Books.assistantIds (fire_books w _)

/-! ### The end of an operation -/

theorem conclude_furthers (ha : Foreign assistant) (w : World) (op : Nat) (outcome : Except Fault Result) :
    Furthers op assistant (outcome = .error .interrupted) w (w.conclude op assistant outcome) := by
  obtain ⟨hnone, h⟩ | ⟨a, rfl, hne, h⟩ := w.conclude_cases op assistant outcome
  · rw [h]
    exact furthers_complete w op hnone (answerTo_interrupted assistant)
  · rw [h]
    exact furthers_announce (ha a rfl) w op hne

theorem relay_furthers (ha : Foreign assistant) (w : World) (op : Nat) (outcome : Except Fault Result)
    (queue : List Hook) :
    Furthers op assistant (outcome = .error .interrupted) w (w.relay op assistant outcome queue) := by
  induction queue generalizing w with
  | nil => exact conclude_furthers ha w op outcome
  | cons hook rest ih =>
    rw [relay_cons]
    split
    · exact conclude_furthers ha w op outcome
    · split
      · exact (ih (w.log (.hook hook))).after_told (told_log w _) rfl rfl
      · next hooks _ _ =>
        have htold : Told w (w.tell hook (hooks.delay w.told hook)).1 := ⟨⟨_, rfl⟩, rfl, rfl, rfl⟩
        refine Furthers.after_told ?_ htold rfl rfl
        exact furthers_setStage _ op (fun _ _ h => by cases h) (fun _ _ _ => trivial) id

/-- **A decision** of a request is none that the assistant announces, but what it leads to is. -/
theorem decide_furthers (ha : Foreign assistant) {record : RequestRecord}
    (hsource : record.id.source = RequestIds.service.source) (w : World) (op : Nat) (outcome : Except Fault Result) :
    Furthers op assistant (outcome = .error .interrupted) w (w.decide op assistant record outcome) := by
  have hforeign : record.id.source ≠ RequestIds.assistant.source := by rw [hsource]; decide
  have hcounted : ∀ (service : Service) (e : BusEvent), e.id? = some record.id →
      ({ w with service }.fire e).announced = w.announced := by
    intro service e hid
    rw [fire_announced _ hid, if_neg hforeign, List.append_nil]
    rfl
  have hids : ∀ (service : Service) (e : BusEvent), ({ w with service }.fire e).assistantIds = w.assistantIds :=
    fun service e => congrArg Books.assistantIds (fire_books { w with service } e)
  cases outcome with
  | ok r =>
    have hrelay := relay_furthers ha (w.countSuccess record r) op (w.handed r) (w.successHooks record r)
    exact (hrelay.after_told (told_countSuccess w record r) (hcounted _ _ rfl) (hids _ _)).mono
      fun h => absurd h (w.handed_ne_interrupted r)
  | error f =>
    exact (relay_furthers ha (w.countFailure record f) op (.error f) _).after_told (told_countFailure w record f)
      (hcounted _ _ rfl) (hids _ _)

/-! ### The beginning of an operation -/

theorem request_furthers (ha : Foreign assistant) (hsource : w.service.ids.source = RequestIds.service.source) (op : Nat)
    (token : Token) (operation : String) (kind : Capability) (payload : Payload) (context : Option Context) :
    Furthers op assistant False w (w.request op assistant token operation kind payload context) := by
  have hops : (w.asked op operation kind).operations = w.operations.modify op fun o =>
      { o with request := some (w.newRequest operation kind).2 } := rfl
  cases hinvited : FanOut.invited w.service.ledger.registry kind (w.isCancelled token) with
  | error f =>
    have hne : f ≠ .interrupted := FanOut.invited_ne_interrupted hinvited
    have hrecord : (w.newRequest operation kind).2.id.source = RequestIds.service.source := hsource
    have hdecide := decide_furthers ha hrecord (w.asked op operation kind) op (.error f)
    rw [request_refused hinvited]
    exact (hdecide.mono fun h => hne (Except.error.inj h)).after hops (fun _ => rfl) rfl rfl
  | ok ps =>
    rw [request_launched hinvited]
    refine ⟨⟨_, [], ?_, (List.append_nil _).symm, fun o ho => Operation.furthered_launched ho
      (w.newRequest operation kind).2 ⟨kind, w.service.config.policy, ps.zipIdx w.clock.nextTask⟩⟩, rfl⟩
    show (w.asked op operation kind).operations.modify op _ = _
    rw [hops, List.modify_modify_eq]
    rfl

theorem send_furthers (ha : Foreign assistant) (hsource : w.service.ids.source = RequestIds.service.source) (op : Nat)
    (token : Token) (context : Context) {ask : Ask} (hask : assistant.isSome = true → ask ≠ .context) :
    Furthers op assistant False w (w.send op assistant token context ask) := by
  cases ask with
  | context =>
    have hnone : assistant = none := Option.eq_none_iff_forall_not_mem.mpr fun a h => hask (by rw [h]; rfl) rfl
    exact furthers_complete w op (.inl hnone) nofun
  | chat message => exact request_furthers ha hsource op token _ _ _ _
  | edit path range instruction options => exact request_furthers ha hsource op token _ _ _ _

theorem prepare_furthers (ha : Foreign assistant) (hsource : w.service.ids.source = RequestIds.service.source) (op : Nat)
    (token : Token) (extras : Extras) {ask : Ask} (hask : assistant.isSome = true → ask ≠ .context) :
    Furthers op assistant False w (w.prepare op assistant token extras ask) := by
  obtain ⟨f, hoverlay, h⟩ | ⟨context, reply, -, h⟩ | ⟨context, h⟩ := w.prepare_cases op assistant token extras ask
  · rw [h]
    refine (conclude_furthers ha w op (.error f)).mono fun h => ?_
    cases h
    unfold Context.overlay at hoverlay
    split at hoverlay <;> cases hoverlay
  · rw [h]
    refine Furthers.after_clock (w.clock.spawn .none (.resolve reply)).1 ?_
    exact furthers_setStage _ op (fun _ _ h => by cases h) (fun o ho hsome => hask (ho ▸ hsome)) id
  · rw [h]
    exact send_furthers ha hsource op token context hask

/-! ### Operations that are there -/

variable {o : Operation} {x : Occurrence}

/-- The task of an operation that looks up its workspace was cancelled while the operation waited for it. -/
def CutShort (w : World) (o : Operation) : Prop :=
  ∃ context ask task, o.stage = .resolving context ask task ∧ w.clock.ending? task = some (.error .interrupted)

/-- **An operation gets on.** -/
theorem resume_furthers (hb : w.books.Kept) (ho : o ∈ w.operations) (hsends : o.Sends)
    (h : w.resume op o = some v) :
    Furthers op o.assistant (o.stage.Interrupted ∨ w.CutShort o) w v := by
  have ha := hb.foreign o ho
  cases resume_resumes h with
  | cutShort stage ending => exact (conclude_furthers ha w op _).mono fun _ => .inr ⟨_, _, _, stage, ending⟩
  | sends stage =>
    have hask := hsends
    unfold Operation.Sends at hask
    rw [stage] at hask
    exact (send_furthers ha hb.source op _ _ hask).mono False.elim
  | lands stage look bare =>
    have hnone : o.assistant = none := by
      by_contra hsome
      have hsends := hsends (Option.isSome_iff_ne_none.mpr hsome)
      rw [stage, bare] at hsends
      cases hsends
    have hne := FanOut.look_ne_interrupted look
    exact furthers_complete w op (.inl hnone) fun h => absurd (answerTo_interrupted none h) hne
  | decides stage look request =>
    exact (decide_furthers ha (hb.issued _ (List.mem_filterMap.mpr ⟨o, ho, request⟩)).1 w op _).mono
      fun h => absurd h (FanOut.look_ne_interrupted look)
  | relays stage =>
    refine (relay_furthers ha w op _ _).mono fun h => .inl ?_
    rw [stage]
    exact h

/-- **An operation is aborted** where it is. -/
theorem abort_furthers (hb : w.books.Kept) (ho : w.operations[op]? = some o) (hrunning : o.outcome? = none) :
    Furthers op o.assistant True w (w.abort op) := by
  have ha := hb.foreign o (List.mem_of_getElem? ho)
  have hconclude : ∀ v : World, Furthers op o.assistant True v (v.conclude op o.assistant (.error .interrupted)) :=
    fun v => (conclude_furthers ha v op _).mono fun _ => trivial
  have habort := w.abort_aborts op
  generalize w.abort op = v at habort ⊢
  cases habort with
  | idle done =>
    have hdone := done o ho
    rw [hrunning] at hdone
    cases hdone
  | resolving there _ =>
    cases ho.symm.trans there
    exact (hconclude _).after_clock _
  | flying _ _ _ => exact furthers_complete w op (.inr rfl) fun _ => trivial
  | @requesting _ _ record there _ request =>
    cases ho.symm.trans there
    have hforeign : record.id.source ≠ RequestIds.assistant.source := by
      rw [(hb.issued record (mem_made ho request)).1]
      decide
    have htold := (told_countFailure w record .interrupted).trans
      (told_announce _ (.error record .interrupted (w.now - record.startedAt)))
    refine (hconclude _).after_told htold ?_ ?_
    · have hannounced : ∀ (w : World) (hook : Hook), (w.announce hook).announced = w.announced := by
        intro w hook
        unfold announce
        split <;> rfl
      have hfire := fire_announced { w with service := { w.service with errors := w.service.errors + 1 } }
        (e := .error record.id .interrupted record.operation (w.now - record.startedAt)) rfl
      rw [if_neg hforeign, List.append_nil] at hfire
      exact (hannounced _ _).trans hfire
    · refine congrArg Books.assistantIds ((announce_books _ _).trans (fire_books _ _))
  | relaying there _ =>
    cases ho.symm.trans there
    exact (hconclude _).after_told (told_of_clock rfl rfl rfl rfl) rfl rfl

/-! ### Operations that begin -/

/-- An operation was entered for an order, as one of the assistant only if it was ordered from the assistant. -/
structure Enters (w : World) (order : Order) (o : Operation) (v : World) : Prop where
  operations : v.operations = w.operations ++ [o]
  announced : v.announced = w.announced
  announcement : o.announcement = []
  sends : o.Sends
  issued : o.assistant = none ∧ v.assistantIds = w.assistantIds ∨ ∃ assignment, order = .assistant assignment ∧
    o.assistant = some (w.recordOf assignment) ∧
      v.assistantIds = { w.assistantIds with issued := w.assistantIds.issued + 1 }

/-- **An operation begins.** -/
theorem begin_furthers (hb : w.books.Kept) {order : Order} (token : Token)
    (hask : ∀ assignment, order = .assistant assignment → assignment.ask ≠ .context) :
    ∃ o v, w.Enters order o v ∧ Furthers w.operations.length o.assistant False v (w.begin order token).1 := by
  have hforeign : Foreign none := fun _ h => by cases h
  have hentered : w.Enters order { token, stage := .done (.error .interrupted) w.now } (w.entered token) :=
    ⟨rfl, rfl, rfl, Operation.sends_of_done rfl, .inl ⟨rfl, rfl⟩⟩
  cases order with
  | bare kind payload context =>
    refine ⟨_, _, hentered, ?_⟩
    cases hinvited : FanOut.invited w.service.ledger.registry kind (w.isCancelled token) with
    | error f =>
      rw [begin_bare_refused hinvited]
      exact furthers_complete _ _ (.inl rfl) fun h => FanOut.invited_ne_interrupted hinvited (Except.error.inj h)
    | ok ps =>
      rw [begin_bare_launched hinvited]
      refine Furthers.after_clock (w.clock.calling kind payload context token ps) ?_
      exact furthers_setStage _ _ (fun _ _ h => by cases h) (fun o ho hsome => by rw [ho] at hsome; cases hsome) id
  | service operation kind payload context =>
    have hrequest := request_furthers (w := w.entered token) hforeign hb.source w.operations.length token operation
    exact ⟨_, _, hentered, hrequest kind payload context⟩
  | assistant a =>
    refine ⟨_, w.assigned token a, ⟨rfl, rfl, rfl, Operation.sends_of_done rfl, .inr ⟨a, rfl, rfl, rfl⟩⟩, ?_⟩
    rw [begin_assistant]
    exact prepare_furthers (w := w.assigned token a) (fun _ h => by cases h; exact hb.assistantSource) hb.source _ token
      a.extras fun _ => hask a rfl
  | context extras =>
    exact ⟨_, _, hentered, prepare_furthers (w := w.entered token) hforeign hb.source _ token extras fun h => by cases h⟩

end World

end Orchestra
