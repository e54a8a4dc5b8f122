import Orchestra.Service.Progress

/-!
# Orchestra.Proofs.Service.Course — the course that an operation takes

Whatever takes an operation further is said here once, in named cases: what a fan-out, a request and the look-up of a
workspace begin with, what an operation comes to when it gets on (`Resumes`), and where it can be aborted (`Aborts`).  What
is kept along a course is then shown case by case.
-/

namespace Orchestra

namespace Clockwork

/-- The clockwork with a task more for the call of every provider. -/
def calling (c : Clockwork) (kind : Capability) (payload : Payload) (context : Context) (token : Token)
    (ps : List ProviderRef) : Clockwork :=
  { c with
    nextTask := c.nextTask + ps.length
    tasks := c.tasks ++ (ps.zipIdx c.nextTask).map fun x =>
      ⟨x.2, token, .fresh (.call x.1.index kind payload context)⟩ }

end Clockwork

/-- What a hook raises is caught, whatever it is. -/
@[simp] theorem Hooks.goesOn_eq (h : Hooks) (number : Nat) : h.goesOn number = true := by
  unfold goesOn ending
  cases h.raises number with
  | none => rfl
  | some complaint =>
    obtain ⟨fault, ne⟩ := complaint
    cases fault with
    | interrupted => exact absurd rfl ne
    | _ => rfl

@[simp] theorem Hooks.all_goesOn (hooks : Option Hooks) (number : Nat) : hooks.all (·.goesOn number) = true := by
  cases hooks <;> simp

namespace World

variable {w v : World} {op : Nat} {o : Operation} {assistant : Option AssistantRecord} {token : Token}
  {kind : Capability} {payload : Payload} {context : Context} {ps : List ProviderRef} {f : Fault}

/-! ### Fan-outs -/

theorem call_eq (ps : List ProviderRef) :
    w.call kind payload context token ps =
      ({ w with clock := w.clock.calling kind payload context token ps }, ps.zipIdx w.clock.nextTask) := by
  induction ps generalizing w with
  | nil => simp [call, Clockwork.calling]
  | cons p ps ih =>
    simp only [call, Clockwork.spawn, ih, Clockwork.calling, List.zipIdx_cons, List.map_cons, List.append_assoc,
      List.cons_append, List.nil_append, List.length_cons]
    rw [Nat.add_assoc, Nat.add_comm 1]

theorem launch_ok (h : FanOut.invited w.service.ledger.registry kind (w.isCancelled token) = .ok ps) :
    w.launch kind payload context token =
      ({ w with clock := w.clock.calling kind payload context token ps },
        .ok ⟨kind, w.service.config.policy, ps.zipIdx w.clock.nextTask⟩) := by
  unfold launch
  rw [h]
  simp only [call_eq]

theorem launch_error (h : FanOut.invited w.service.ledger.registry kind (w.isCancelled token) = .error f) :
    w.launch kind payload context token = (w, .error f) := by
  rw [launch, h]

/-! ### Requests -/

/-- The world in which an operation has just made a request. -/
def asked (w : World) (op : Nat) (operation : String) (kind : Capability) : World :=
  (w.newRequest operation kind).1.modifyOperation op fun o => { o with request := some (w.newRequest operation kind).2 }

theorem request_refused {operation : String} {context : Option Context}
    (h : FanOut.invited w.service.ledger.registry kind (w.isCancelled token) = .error f) :
    w.request op assistant token operation kind payload context =
      (w.asked op operation kind).decide op assistant (w.newRequest operation kind).2 (.error f) := by
  have hasked : FanOut.invited (w.asked op operation kind).service.ledger.registry kind
      ((w.asked op operation kind).isCancelled token) = .error f := h
  unfold request
  dsimp only
  rw [← asked, launch_error hasked]

theorem request_launched {operation : String} {context : Option Context}
    (h : FanOut.invited w.service.ledger.registry kind (w.isCancelled token) = .ok ps) :
    w.request op assistant token operation kind payload context =
      { w.asked op operation kind with
          clock := w.clock.calling kind payload (context.getD w.service.context.current) token ps }.setStage op
        (.flying ⟨kind, w.service.config.policy, ps.zipIdx w.clock.nextTask⟩) := by
  have hasked : FanOut.invited (w.asked op operation kind).service.ledger.registry kind
      ((w.asked op operation kind).isCancelled token) = .ok ps := h
  unfold request
  dsimp only
  rw [← asked, launch_ok hasked]
  rfl

/-- The context cannot be built, the workspace is looked up for it, or what is asked is sent at once. -/
theorem prepare_cases (w : World) (op : Nat) (assistant : Option AssistantRecord) (token : Token) (extras : Extras)
    (ask : Ask) :
    (∃ f, w.service.context.current.overlay extras.toChanges = .error f ∧
      w.prepare op assistant token extras ask = w.conclude op assistant (.error f)) ∨
    (∃ context reply, w.resolver = some reply ∧ w.prepare op assistant token extras ask =
      { w with clock := (w.clock.spawn .none (.resolve reply)).1 }.setStage op
        (.resolving context ask w.clock.nextTask)) ∨
    ∃ context, w.prepare op assistant token extras ask = w.send op assistant token context ask := by
  unfold prepare
  split
  · next f h => exact .inl ⟨f, h, rfl⟩
  · next context _ =>
    split
    · next reply _ hr => exact .inr (.inl ⟨context, reply, hr, rfl⟩)
    · exact .inr (.inr ⟨context, rfl⟩)

/-! ### The beginning -/

/-- The world with one more operation, of which nothing is known yet but its token. -/
def entered (w : World) (token : Token) : World :=
  { w with operations := w.operations ++ [{ token, stage := .done (.error .interrupted) w.now }] }

/-- The record with which the assistant takes on an assignment now. -/
def recordOf (w : World) (assignment : Assignment) : AssistantRecord :=
  ⟨(w.assistantIds.next (Time.calendarMillis w.now) (w.suffix w.assistantIds.source w.assistantIds.issued)).1,
    assignment.operation, w.now, assignment.reading⟩

/-- The world in which the assistant has just taken on an assignment. -/
def assigned (w : World) (token : Token) (assignment : Assignment) : World :=
  { w with
    operations := w.operations ++
      [{ token, assistant := some (w.recordOf assignment), stage := .done (.error .interrupted) w.now }]
    assistantIds := { w.assistantIds with issued := w.assistantIds.issued + 1 } }

theorem begin_bare_refused (h : FanOut.invited w.service.ledger.registry kind (w.isCancelled token) = .error f) :
    (w.begin (.bare kind payload context) token).1 = (w.entered token).complete w.operations.length (.error f) := by
  have hentered : FanOut.invited (w.entered token).service.ledger.registry kind
      ((w.entered token).isCancelled token) = .error f := h
  unfold begin
  dsimp only
  rw [← entered, launch_error hentered]

theorem begin_bare_launched (h : FanOut.invited w.service.ledger.registry kind (w.isCancelled token) = .ok ps) :
    (w.begin (.bare kind payload context) token).1 =
      { w.entered token with clock := w.clock.calling kind payload context token ps }.setStage w.operations.length
        (.flying ⟨kind, w.service.config.policy, ps.zipIdx w.clock.nextTask⟩) := by
  have hentered : FanOut.invited (w.entered token).service.ledger.registry kind
      ((w.entered token).isCancelled token) = .ok ps := h
  unfold begin
  dsimp only
  rw [← entered, launch_ok hentered]
  rfl

theorem begin_assistant (w : World) (a : Assignment) (token : Token) :
    (w.begin (.assistant a) token).1 =
      (w.assigned token a).prepare w.operations.length (some (w.recordOf a)) token a.extras a.ask := by
  have hmodify : ∀ g : Operation → Operation, (w.entered token).operations.modify w.operations.length g =
      w.operations ++ [g { token, stage := .done (.error .interrupted) w.now }] := by
    intro g
    rw [entered, List.modify_eq_take_cons_drop (by simp)]
    simp
  have hassigned : { w.entered token with assistantIds := (w.assigned token a).assistantIds }.modifyOperation
      w.operations.length (fun o => { o with assistant := some (w.recordOf a) }) = w.assigned token a := by
    rw [modifyOperation, hmodify]
    rfl
  rw [← hassigned]
  rfl

/-- A result that cannot be displayed is no interruption. -/
theorem handed_ne_interrupted (w : World) (r : Result) : w.handed r ≠ .error .interrupted := by
  unfold handed
  split
  · next complaint _ => exact fun h => complaint.ne_interrupted (Except.error.inj h)
  · exact nofun

/-! ### Getting on -/

/-- Telling the next hook takes no time, or the operation waits for it; how it ends makes no difference. -/
theorem relay_cons (w : World) (op : Nat) (assistant : Option AssistantRecord) (outcome : Except Fault Result) (hook : Hook)
    (rest : List Hook) :
    w.relay op assistant outcome (hook :: rest) =
      match w.service.hooks with
      | none => w.conclude op assistant outcome
      | some hooks =>
        if hooks.delay w.told hook = 0 then (w.log (.hook hook)).relay op assistant outcome rest
        else (w.tell hook (hooks.delay w.told hook)).1.setStage op (.relaying w.told rest outcome) := by
  rw [relay]
  cases w.service.hooks with
  | none => rfl
  | some hooks => simp only [Hooks.goesOn_eq, if_true]; rfl

/-- What an operation comes to that gets on. -/
inductive Resumes (w : World) (op : Nat) (o : Operation) : World → Prop where
  /-- The look-up of the workspace was cancelled. -/
  | cutShort {context : Context} {ask : Ask} {task : Nat} (stage : o.stage = .resolving context ask task)
      (ending : w.clock.ending? task = some (.error .interrupted)) :
      w.Resumes op o (w.conclude op o.assistant (.error .interrupted))
  /-- What is asked is sent, with the workspace if one was found. -/
  | sends {context found : Context} {ask : Ask} {task : Nat} (stage : o.stage = .resolving context ask task) :
      w.Resumes op o (w.send op o.assistant o.token found ask)
  /-- A fan-out that is no request is over. -/
  | lands {flight : Flight} {outcome : Except Fault Result} (stage : o.stage = .flying flight)
      (look : flight.look w.clock o.token = some outcome) (bare : o.request = none) :
      w.Resumes op o (w.complete op (outcome.map .result))
  /-- The fan-out of a request is over. -/
  | decides {flight : Flight} {outcome : Except Fault Result} {record : RequestRecord} (stage : o.stage = .flying flight)
      (look : flight.look w.clock o.token = some outcome) (request : o.request = some record) :
      w.Resumes op o (w.decide op o.assistant record outcome)
  /-- A hook has been told, and the next is. -/
  | relays {telling : Nat} {queue : List Hook} {outcome : Except Fault Result}
      (stage : o.stage = .relaying telling queue outcome) : w.Resumes op o (w.relay op o.assistant outcome queue)

theorem resume_resumes (h : w.resume op o = some v) : w.Resumes op o v := by
  unfold resume at h
  split at h
  · cases h
  · next hstage =>
    split at h
    · cases h
    · next hending => cases h; exact .cutShort hstage hending
    · cases h; exact .sends hstage
    · cases h; exact .sends hstage
  · next hstage =>
    obtain ⟨outcome, hlook, rfl⟩ := Option.map_eq_some_iff.mp h
    split
    · next hrequest => exact .lands hstage hlook hrequest
    · next hrequest => exact .decides hstage hlook hrequest
  · next hstage =>
    rw [Hooks.all_goesOn, if_pos rfl] at h
    split at h
    · cases h
    · cases h; exact .relays hstage

/-- Only an operation that is not done gets on. -/
theorem running_of_resume (h : w.resume op o = some v) : o.outcome? = none := by
  cases resume_resumes h with
  | cutShort stage _ | sends stage | lands stage _ _ | decides stage _ _ | relays stage =>
    rw [Operation.outcome?, stage]

/-! ### Aborting -/

/-- Where an operation is aborted, and what comes of it. -/
inductive Aborts (w : World) (op : Nat) : World → Prop where
  /-- There is nothing to abort. -/
  | idle (done : ∀ o, w.operations[op]? = some o → o.outcome?.isSome = true) : w.Aborts op w
  | resolving {o : Operation} {context : Context} {ask : Ask} {task : Nat} (there : w.operations[op]? = some o)
      (stage : o.stage = .resolving context ask task) :
      w.Aborts op ({ w with clock := w.clock.kill task }.conclude op o.assistant (.error .interrupted))
  /-- A fan-out that is no request. -/
  | flying {o : Operation} {flight : Flight} (there : w.operations[op]? = some o) (stage : o.stage = .flying flight)
      (bare : o.request = none) : w.Aborts op (w.complete op (.error .interrupted))
  /-- The fan-out of a request; hooks are told of the failure in the background. -/
  | requesting {o : Operation} {flight : Flight} {record : RequestRecord} (there : w.operations[op]? = some o)
      (stage : o.stage = .flying flight) (request : o.request = some record) :
      w.Aborts op (((w.countFailure record .interrupted).announce
        (.error record .interrupted (w.now - record.startedAt))).conclude op o.assistant (.error .interrupted))
  | relaying {o : Operation} {telling : Nat} {queue : List Hook} {outcome : Except Fault Result}
      (there : w.operations[op]? = some o) (stage : o.stage = .relaying telling queue outcome) :
      w.Aborts op ((w.hush telling).conclude op o.assistant (.error .interrupted))

theorem abort_aborts (w : World) (op : Nat) : w.Aborts op (w.abort op) := by
  unfold abort
  split
  · next hnone => exact .idle fun o ho => by rw [hnone] at ho; cases ho
  · next o there =>
    split
    · next hstage =>
      refine .idle fun o' ho => ?_
      cases there.symm.trans ho
      rw [Operation.outcome?, hstage]
      rfl
    · next hstage => exact .resolving there hstage
    · next hstage =>
      split
      · next hrequest => exact .flying there hstage hrequest
      · next hrequest => exact .requesting there hstage hrequest
    · next hstage => exact .relaying there hstage

theorem abort_of_done (h : ∀ o, w.operations[op]? = some o → o.outcome?.isSome = true) : w.abort op = w := by
  have habort := w.abort_aborts op
  generalize w.abort op = v at habort ⊢
  cases habort with
  | idle _ => rfl
  | resolving there stage | flying there stage _ | requesting there stage _ | relaying there stage =>
    have hdone := h _ there
    rw [Operation.outcome?, stage] at hdone
    cases hdone

end World

end Orchestra
