import Orchestra.Proofs.Runs.Sound

/-!
# Orchestra.Proofs.Dispatch.Launch — what starts a fan-out, and with what

An operation starts a fan-out when it begins, or when the workspace has been looked up for what is asked (`World.starts`).
The fan-out takes everything with it that it needs: its kind, payload, context and token.  It is then refused and decided
at once, or there is a task for the call of every provider that is listed, in that order, and the operation waits for
these (`occur_starts`).
-/

namespace Orchestra

/-- What a fan-out is for: the operation that waits for it, and what every provider is called with. -/
structure Brief where
  op : Nat
  kind : Capability
  payload : Payload
  context : Context
  token : Token

/-- What is sent once the context is known. -/
def Ask.brief? (op : Nat) (token : Token) (context : Context) : Ask → Option Brief
  | .context => none
  | .chat message => some ⟨op, .chat, .text message, context, token⟩
  | .edit path range instruction options =>
    some ⟨op, .codeEdit, .edit ⟨path, range, instruction, context, options⟩, context, token⟩

/-- What the caller is to get, once that is decided. -/
def Operation.decided? (o : Operation) : Option (Except Fault Answer) :=
  match o.stage with
  | .relaying _ _ outcome => some (answerTo o.assistant outcome)
  | .done outcome _ => some outcome
  | _ => none

namespace World

/-- The context of what is asked, unless the workspace is still to be looked up for it. -/
def readyContext? (w : World) (extras : Extras) : Option Context :=
  match w.service.context.current.overlay extras.toChanges with
  | .error _ => none
  | .ok context => if context.workspace.isNone && w.resolver.isSome then none else some context

/-- What an operation sends whose workspace has been looked up. -/
def resolved? (w : World) (op : Nat) (o : Operation) : Option Brief :=
  match o.stage with
  | .resolving context ask task =>
    match w.clock.ending? task with
    | none | some (.error .interrupted) => none
    | some (.ok (.workspace workspace)) => ask.brief? op o.token { context with workspace := some workspace }
    | some _ => ask.brief? op o.token context
  | _ => none

/-- The fan-out that an occurrence starts, if it starts one. -/
def starts (w : World) : Occurrence → Option Brief
  | .begin (.bare kind payload context) token => some ⟨w.operations.length, kind, payload, context, token⟩
  | .begin (.service _ kind payload context) token =>
    some ⟨w.operations.length, kind, payload, context.getD w.service.context.current, token⟩
  | .begin (.assistant a) token => (w.readyContext? a.extras).bind (a.ask.brief? w.operations.length token)
  | .resume op => if w.clock.step.isNone then (w.operations[op]?).bind (w.resolved? op) else none
  | _ => none

/-- What the caller of an operation is to get, once that is decided. -/
def decided? (w : World) (op : Nat) : Option (Except Fault Answer) := (w.operations[op]?).bind (·.decided?)

/-- The providers that a fan-out would call in this world, or why it is refused. -/
def invites (w : World) (b : Brief) : Except Fault (List ProviderRef) :=
  FanOut.invited w.service.ledger.registry b.kind (w.isCancelled b.token)

variable {u v w : World} {op : Nat} {o : Operation} {b : Brief} {ps : List ProviderRef}

theorem getElem?_modifyOperation (ho : w.operations[op]? = some o) (f : Operation → Operation) :
    (w.modifyOperation op f).operations[op]? = some (f o) := by
  show (w.operations.modify op f)[op]? = some (f o)
  rw [List.getElem?_modify_eq, ho]
  rfl

theorem outcome?_complete {answer : Except Fault Answer} (ho : w.operations[op]? = some o) :
    (w.complete op answer).outcome? op = some (answer, w.now) := by
  unfold outcome? complete setStage
  rw [getElem?_modifyOperation ho]
  rfl

/-- An outcome that is passed on decides the operation. -/
theorem Passes.decided? {assistant : Option AssistantRecord} {outcome : Except Fault Result} {bound : Nat}
    (h : Passes op assistant outcome bound w v) (ho : w.operations[op]? = some o) (ha : o.assistant = assistant) :
    v.decided? op = some (answerTo assistant outcome) := by
  subst ha
  obtain ⟨stage, hstage, hconcluding, -⟩ := h.stage
  unfold World.decided?
  rw [hstage, List.getElem?_modify_eq, ho]
  rcases hconcluding with ⟨telling, queue, rfl⟩ | ⟨tick, rfl⟩ <;> rfl

/-- Who is not refused calls the providers that are listed, of which there are some, with a token that is not cancelled. -/
theorem invites_ok (h : w.invites b = .ok ps) :
    ps = w.service.ledger.registry.providersFor b.kind ∧ ps ≠ [] ∧ w.isCancelled b.token = false := by
  unfold invites FanOut.invited at h
  split at h
  · cases h
  · split at h
    · cases h
    · next hlisted =>
      split at h
      · cases h
      · next hcancelled =>
        cases h
        exact ⟨hlisted.symm, List.cons_ne_nil _ _, Bool.not_eq_true _ ▸ hcancelled⟩

/-! ### The start -/

/-- The providers have their tasks, and the operation waits for these; it is a request, or no more than the fan-out. -/
structure Launched (w v : World) (b : Brief) (ps : List ProviderRef) : Prop where
  operation : ∃ o, v.operations[b.op]? = some o ∧ o.token = b.token ∧ (o.request = none → o.assistant = none) ∧
    o.stage = .flying ⟨b.kind, w.service.config.policy, ps.zipIdx w.clock.nextTask⟩
  clock : v.clock = w.clock.calling b.kind b.payload b.context b.token ps

/-- What a fan-out finds when it starts, and where it starts from. -/
structure Alike (w v : World) : Prop where
  clock : v.clock = w.clock
  service : v.service.ledger = w.service.ledger ∧ v.service.config = w.service.config ∧
    v.service.context = w.service.context

theorem Alike.invites (h : Alike w v) (b : Brief) : v.invites b = w.invites b := by
  unfold World.invites isCancelled
  rw [h.clock, h.service.1]

theorem Launched.of_alike (h : Alike w v) (hl : Launched v u b ps) : Launched w u b ps := by
  obtain ⟨o, ho, htoken, hbare, hstage⟩ := hl.operation
  refine ⟨⟨o, ho, htoken, hbare, ?_⟩, by rw [hl.clock, h.clock]⟩
  rw [hstage, h.service.2.1, h.clock]

/-- What comes of a fan-out that starts: it is launched, or it is refused and decided. -/
def Starts (w v : World) (b : Brief) : Prop :=
  match w.invites b with
  | .ok ps => Launched w v b ps
  | .error _ => ∃ answer, v.decided? b.op = some answer

theorem Starts.of_alike (h : Alike w v) (hs : Starts v u b) : Starts w u b := by
  unfold Starts at hs ⊢
  rw [h.invites] at hs
  cases hi : w.invites b with
  | ok ps =>
    rw [hi] at hs
    exact hs.of_alike h
  | error f =>
    rw [hi] at hs
    exact hs

/-- A request takes the given context with it, or else the current one. -/
theorem request_starts {operation : String} {kind : Capability} {payload : Payload} {context : Option Context}
    {token : Token} (ho : w.operations[op]? = some o) (htoken : o.token = token) :
    Starts w (w.request op o.assistant token operation kind payload context)
      ⟨op, kind, payload, context.getD w.service.context.current, token⟩ := by
  have ho' : (w.asked op operation kind).operations[op]? =
      some { o with request := some (w.newRequest operation kind).2 } :=
    getElem?_modifyOperation (w := (w.newRequest operation kind).1) ho _
  unfold Starts invites
  cases h : FanOut.invited w.service.ledger.registry kind (w.isCancelled token) with
  | ok ps =>
    rw [request_launched h]
    exact ⟨⟨_, getElem?_modifyOperation (w := { w.asked op operation kind with clock := _ }) ho' _, htoken, nofun, rfl⟩, rfl⟩
  | error f =>
    rw [request_refused h]
    exact ⟨_, (passes_decide (w.asked op operation kind) op o.assistant _ _).decided? ho' rfl⟩

theorem send_starts {ask : Ask} {context : Context} {token : Token} (ho : w.operations[op]? = some o)
    (htoken : o.token = token) (hb : ask.brief? op token context = some b) :
    Starts w (w.send op o.assistant token context ask) b := by
  cases ask with
  | context => cases hb
  | chat message => cases hb; exact request_starts ho htoken
  | edit path range instruction options => cases hb; exact request_starts ho htoken

/-- What is ready to be sent is sent at once. -/
theorem prepare_ready {extras : Extras} {context : Context} (h : w.readyContext? extras = some context)
    (assistant : Option AssistantRecord) (token : Token) (ask : Ask) :
    w.prepare op assistant token extras ask = w.send op assistant token context ask := by
  unfold readyContext? at h
  unfold prepare
  rcases hc : w.service.context.current.overlay extras.toChanges with f | context'
  · rw [hc] at h; cases h
  · rw [hc] at h
    dsimp only at h ⊢
    split at h
    · cases h
    · next hready =>
      cases h
      split
      · next hw hr => exact absurd (by rw [hw, hr]; rfl) hready
      · rfl

theorem begin_starts {order : Order} {token : Token} (hb : w.starts (.begin order token) = some b) :
    Starts w (w.begin order token).1 b := by
  let fresh : Operation := { token, stage := .done (.error .interrupted) w.now }
  have hthere : (w.entered token).operations[w.operations.length]? = some fresh := List.getElem?_concat_length
  cases order with
  | bare kind payload context =>
    cases hb
    unfold Starts invites
    cases h : FanOut.invited w.service.ledger.registry kind (w.isCancelled token) with
    | ok ps =>
      rw [begin_bare_launched h]
      exact ⟨⟨_, getElem?_modifyOperation (w := { w.entered token with clock := _ }) hthere _, rfl, fun _ => rfl, rfl⟩, rfl⟩
    | error f =>
      rw [begin_bare_refused h]
      refine ⟨.error f, ?_⟩
      show (((w.entered token).modifyOperation w.operations.length _).operations[w.operations.length]?).bind _ = _
      rw [getElem?_modifyOperation hthere]
      rfl
  | service operation kind payload context =>
    cases hb
    have halike : Alike w (w.entered token) := ⟨rfl, rfl, rfl, rfl⟩
    exact (request_starts hthere rfl).of_alike halike
  | assistant a =>
    obtain ⟨context, hready, hb⟩ := Option.bind_eq_some_iff.mp hb
    have hassigned : (w.assigned token a).operations[w.operations.length]? =
        some { fresh with assistant := some (w.recordOf a) } := List.getElem?_concat_length
    have halike : Alike w (w.assigned token a) := ⟨rfl, rfl, rfl, rfl⟩
    rw [begin_assistant, prepare_ready (w := w.assigned token a) hready]
    exact (send_starts hassigned rfl hb).of_alike halike
  | context extras => cases hb

theorem resume_starts (hb : w.starts (.resume op) = some b) : Starts w (w.occur (.resume op)) b := by
  simp only [starts] at hb
  split at hb
  · obtain ⟨o, ho, hb⟩ := Option.bind_eq_some_iff.mp hb
    have hsent : ∀ {context : Context} {ask : Ask}, w.resume op o = some (w.send op o.assistant o.token context ask) →
        ask.brief? op o.token context = some b → Starts w (w.occur (.resume op)) b := by
      intro context ask hr hb
      have hoccur : w.occur (.resume op) = w.send op o.assistant o.token context ask := by
        rw [occur, ho, Option.bind_some, hr, Option.getD_some]
      rw [hoccur]
      exact send_starts ho rfl hb
    unfold resolved? at hb
    split at hb
    · next context ask task hs =>
      unfold resume at hsent
      simp only [hs] at hsent
      split at hb
      · cases hb
      · cases hb
      · next workspace he =>
        rw [he] at hsent
        exact hsent rfl hb
      · next x hno hnot he =>
        rw [he] at hsent
        refine hsent ?_ hb
        split
        · next hx => cases hx
        · next hx => exact absurd (Option.some.inj hx) hno
        · next workspace hx => exact absurd (Option.some.inj hx) (hnot workspace)
        · rfl
    · cases hb
  · cases hb

/-- **Whatever starts a fan-out**, it is launched with what it is for, or refused and decided at once. -/
theorem occur_starts {x : Occurrence} (hb : w.starts x = some b) : Starts w (w.occur x) b := by
  cases x with
  | begin order token => exact begin_starts hb
  | resume op => exact resume_starts hb
  | abort _ | clock _ | tell | due | deed _ | register _ _ | dispose _ | onDispose _ _ | listen _ _ _ | unlisten _
  | setContext _ _ | commit _ _ | clearContext | close => cases hb

/-- What starts a fan-out works on its operation, and only when it may. -/
theorem atWork_of_starts {x : Occurrence} (hb : w.starts x = some b) :
    w.mayOccur x = true ∧ w.worksOn x = some b.op := by
  have hask : ∀ {ask : Ask} {op : Nat} {token : Token} {context : Context}, ask.brief? op token context = some b →
      b.op = op := by
    intro ask op token context h
    cases ask <;> cases h <;> rfl
  cases x with
  | begin order token =>
    refine ⟨rfl, congrArg some ?_⟩
    cases order with
    | bare _ _ _ => cases hb; rfl
    | service _ _ _ _ => cases hb; rfl
    | assistant a =>
      obtain ⟨context, -, hb⟩ := Option.bind_eq_some_iff.mp hb
      exact (hask hb).symm
    | context _ => cases hb
  | resume op =>
    simp only [starts] at hb
    split at hb
    · next hstep =>
      refine ⟨hstep, congrArg some ?_⟩
      obtain ⟨o, -, hb⟩ := Option.bind_eq_some_iff.mp hb
      unfold resolved? at hb
      split at hb
      · split at hb
        · cases hb
        · cases hb
        · exact (hask hb).symm
        · exact (hask hb).symm
      · cases hb
    · cases hb
  | abort _ | clock _ | tell | due | deed _ | register _ _ | dispose _ | onDispose _ _ | listen _ _ _ | unlisten _
  | setContext _ _ | commit _ _ | clearContext | close => cases hb

end World

end Orchestra
