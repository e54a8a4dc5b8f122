import Orchestra.Proofs.Accounting.Books
import Orchestra.Proofs.Accounting.Occurrence
import Orchestra.Proofs.Service.Course

/-!
# Orchestra.Proofs.Naming.Names — when an id is given

The names of a world are the ids that its operations were given, and what the next ones depend on.  Every request to the
service takes the next id of the service, whatever comes of it (`request_naming`), and every operation of the assistant
takes the next one of the assistant when it begins (`begin_naming`).  Nothing else that occurs gives an id, and none is ever
taken back (`occur_naming`).
-/

namespace Orchestra

/-- The ids that an operation was given. -/
structure GivenIds where
  /-- Its own, if it is one of the assistant. -/
  own : Option RequestId := none
  request : Option RequestId := none
  deriving DecidableEq

def Operation.ids (o : Operation) : GivenIds := ⟨o.assistant.map (·.id), o.request.map (·.id)⟩

/-- The ids that were given to operations, in their order, and what the next ids are made of. -/
@[ext] structure Names where
  suffix : String → Nat → String
  service : RequestIds
  assistant : RequestIds
  /-- How many requests were counted. -/
  requests : Nat
  given : List GivenIds

namespace Names

/-- The id that a source gives at that time. -/
def fresh (n : Names) (source : RequestIds) (millis : Int) : RequestId :=
  (source.next millis (n.suffix source.source source.issued)).1

/-- The names after an operation has begun. -/
def enter (n : Names) : Names := { n with given := n.given ++ [{}] }

/-- The names after an operation of the assistant has begun. -/
def assign (n : Names) (millis : Int) : Names :=
  { n with
    assistant := { n.assistant with issued := n.assistant.issued + 1 }
    given := n.given ++ [{ own := some (n.fresh n.assistant millis) }] }

/-- The names after the operation of that number has made a request. -/
def ask (n : Names) (op : Nat) (millis : Int) : Names :=
  { n with
    service := { n.service with issued := n.service.issued + 1 }
    requests := n.requests + 1
    given := n.given.modify op fun g => { g with request := some (n.fresh n.service millis) } }

/-- What becomes of the names when something occurs that begins no operation, or one in this order. -/
inductive Opens (n : Names) (millis : Int) : Option World.Order → Names → Prop
  | none : n.Opens millis none n
  | enter {order : World.Order} (service : ∀ a, order ≠ .assistant a) : n.Opens millis (some order) n.enter
  | assign (a : Assignment) : n.Opens millis (some (.assistant a)) (n.assign millis)

/-- What becomes of the names when an operation may go on that has made no request. -/
inductive Asks (n : Names) (millis : Int) : Option Nat → Names → Prop
  | none : n.Asks millis none n
  | ask {op : Nat} {own : Option RequestId} (there : n.given[op]? = some ⟨own, none⟩) :
      n.Asks millis (some op) (n.ask op millis)

end Names

/-- The operation that is ordered. -/
def Occurrence.order? : Occurrence → Option World.Order
  | .begin order _ => some order
  | _ => none

/-- A change of one entry, seen through a function of the entries. -/
theorem map_modify {α β : Type} {f : α → α} {g : α → β} {f' : β → β} (h : ∀ a, g (f a) = f' (g a)) (l : List α)
    (i : Nat) : (l.modify i f).map g = (l.map g).modify i f' := by
  refine List.ext_getElem? fun j => ?_
  rw [List.getElem?_map, List.getElem?_modify, List.getElem?_modify, List.getElem?_map]
  cases l[j]? with
  | none => rfl
  | some a =>
    by_cases hi : i = j
    · simp [hi, h]
    · simp [hi]

namespace World

def naming (w : World) : Names where
  suffix := w.suffix
  service := w.service.ids
  assistant := w.assistantIds
  requests := w.service.requests
  given := w.operations.map (·.ids)

variable {v w : World} {op : Nat} {o : Operation} {own : Option RequestId}

/-- The time that goes into an id now. -/
def millis (w : World) : Int := Time.calendarMillis w.now

/-! ### What gives no id -/

@[simp] theorem log_naming (w : World) (e : Entry) : (w.log e).naming = w.naming := rfl

@[simp] theorem announce_naming (w : World) (hook : Hook) : (w.announce hook).naming = w.naming := by
  unfold announce
  split <;> rfl

@[simp] theorem listen_naming (w : World) (stream : Stream) (name : String) (reaction : Option Reaction) :
    (w.listen stream name reaction).naming = w.naming := rfl

@[simp] theorem unlisten_naming (w : World) (name : String) : (w.unlisten name).naming = w.naming := by
  unfold unlisten
  split <;> rfl

theorem commit_naming {extras : Extras} {fields : Changes} {update : ContextUpdate}
    (h : w.commit extras fields = .ok (v, update)) : v.naming = w.naming := by
  unfold commit at h
  rcases hc : w.service.context.set extras fields with f | ⟨context, changed⟩
  · rw [hc] at h; cases h
  · rw [hc] at h; cases h; rfl

theorem foldl_naming {α : Type} {f : World → α → World} (hf : ∀ w a, (f w a).naming = w.naming) (as : List α) (w : World) :
    (as.foldl f w).naming = w.naming := by
  induction as generalizing w with
  | nil => rfl
  | cons a as ih => rw [List.foldl_cons, ih, hf]

theorem deliver_naming (depth : Nat) (w : World) (e : BusEvent) : (deliver depth w e).naming = w.naming := by
  induction depth generalizing w e with
  | zero => rfl
  | succ depth ih =>
    rw [deliver]
    refine (foldl_naming (fun w l => ?_) _ _).trans rfl
    dsimp only
    split
    · rfl
    · rfl
    · next another withdrawn language _ =>
      -- who listens is in no name, so only the update of the context is left, and what that leads to in turn
      have hupdate : ∀ {v v' : World} {update : ContextUpdate},
          v.commit .nothing [.language language] = .ok (v', update) → v.naming = w.naming →
          ((deliver depth v' (.context update)).announce (.contextChanged update)).naming = w.naming := by
        intro v v' update hcommit hv
        rw [announce_naming, ih, commit_naming hcommit, hv]
      rcases another with _ | ⟨stream, name⟩ <;> rcases withdrawn with _ | withdrawn <;> rcases language with _ | s
      all_goals dsimp only
      all_goals try split
      all_goals first | exact hupdate ‹_› (by simp) | simp

theorem fire_naming (w : World) (e : BusEvent) : (w.fire e).naming = w.naming := deliver_naming _ w e

theorem setContext_naming {extras : Extras} {fields : Changes} {context : Context}
    (h : w.setContext extras fields = .ok (v, context)) : v.naming = w.naming := by
  unfold setContext at h
  rcases hc : w.commit extras fields with f | ⟨w', update⟩
  · rw [hc] at h; cases h
  · rw [hc] at h
    cases h
    rw [announce_naming, fire_naming, commit_naming hc]

theorem register_naming {p : ProviderRef} {kinds : Option (List Capability)} {handle : Nat}
    (h : w.register p kinds = .ok (v, handle)) : v.naming = w.naming := by
  obtain ⟨ledger, -, rfl⟩ := register_eq h
  rfl

theorem dispose_naming (w : World) (handle : Nat) : (w.dispose handle).1.naming = w.naming := by
  obtain ⟨clock, ledger, owned, h, -⟩ := dispose_eq w handle
  rw [h]
  rfl

theorem doDeed_naming (w : World) (d : Deed) : (w.doDeed d).naming = w.naming := by
  obtain ⟨clock, ledger, owned, h, -⟩ := doDeed_eq w d
  rw [h]
  rfl

theorem doDue_naming (w : World) : w.doDue.naming = w.naming := by
  obtain ⟨clock, ledger, owned, h, -⟩ := doDue_eq w
  rw [h]
  rfl

theorem close_naming (w : World) : w.close.1.naming = w.naming := by
  obtain ⟨clock, ledger, owned, tellings, h, -, -⟩ := close_eq w
  rw [h]
  rfl

/-- Where operations go on, they keep their ids. -/
theorem modify_naming (w : World) (op : Nat) {f : Operation → Operation} (hf : ∀ o, (f o).ids = o.ids) :
    (w.modifyOperation op f).naming = w.naming := by
  have hgiven : (w.operations.modify op f).map (·.ids) = w.operations.map (·.ids) := by
    have hkept : ∀ o : Operation, (f o).ids = id o.ids := hf
    rw [map_modify hkept, List.modify_id]
  exact Names.ext rfl rfl rfl rfl hgiven

@[simp] theorem setStage_naming (w : World) (op : Nat) (stage : Stage) : (w.setStage op stage).naming = w.naming :=
  w.modify_naming op fun _ => rfl

@[simp] theorem complete_naming (w : World) (op : Nat) (answer : Except Fault Answer) :
    (w.complete op answer).naming = w.naming := w.setStage_naming op _

theorem conclude_naming (w : World) (op : Nat) (assistant : Option AssistantRecord) (outcome : Except Fault Result) :
    (w.conclude op assistant outcome).naming = w.naming := by
  obtain ⟨-, h⟩ | ⟨a, -, -, h⟩ := w.conclude_cases op assistant outcome
  · rw [h, complete_naming]
  · rw [h, complete_naming, fire_naming]

theorem relay_naming (w : World) (op : Nat) (assistant : Option AssistantRecord) (outcome : Except Fault Result)
    (queue : List Hook) : (w.relay op assistant outcome queue).naming = w.naming := by
  induction queue generalizing w with
  | nil => exact w.conclude_naming op assistant outcome
  | cons hook rest ih =>
    rw [relay_cons]
    split
    · exact w.conclude_naming op assistant outcome
    · split
      · exact ih (w.log (.hook hook))
      · exact setStage_naming _ op _

theorem countFailure_naming (w : World) (record : RequestRecord) (f : Fault) :
    (w.countFailure record f).naming = w.naming := fire_naming _ _

theorem decide_naming (w : World) (op : Nat) (assistant : Option AssistantRecord) (record : RequestRecord)
    (outcome : Except Fault Result) : (w.decide op assistant record outcome).naming = w.naming := by
  cases outcome with
  | error f => exact (relay_naming _ op assistant _ _).trans (countFailure_naming w record f)
  | ok r => exact (relay_naming _ op assistant _ _).trans (fire_naming _ _)

/-! ### Requests -/

theorem asked_naming (w : World) (op : Nat) (operation : String) (kind : Capability) :
    (w.asked op operation kind).naming = w.naming.ask op w.millis := by
  let asks (g : GivenIds) : GivenIds := { g with request := some (w.naming.fresh w.service.ids w.millis) }
  have hasks : ∀ o : Operation, Operation.ids { o with request := some (w.newRequest operation kind).2 } = asks o.ids :=
    fun _ => rfl
  exact Names.ext rfl rfl rfl rfl (map_modify hasks w.operations op)

/-- **A request** takes the next id of the service, whether it is refused or launched. -/
theorem request_naming (w : World) (op : Nat) (assistant : Option AssistantRecord) (token : Token) (operation : String)
    (kind : Capability) (payload : Payload) (context : Option Context) :
    (w.request op assistant token operation kind payload context).naming = w.naming.ask op w.millis := by
  rw [← asked_naming w op operation kind]
  cases h : FanOut.invited w.service.ledger.registry kind (w.isCancelled token) with
  | error f => rw [request_refused h, decide_naming]
  | ok ps => rw [request_launched h, setStage_naming]; rfl

/-! ### Operations -/

theorem send_naming (there : w.naming.given[op]? = some ⟨own, none⟩) (assistant : Option AssistantRecord) (token : Token)
    (context : Context) (ask : Ask) :
    ∃ asked, w.naming.Asks w.millis asked (w.send op assistant token context ask).naming := by
  cases ask with
  | context => exact ⟨none, (w.complete_naming op _).symm ▸ .none⟩
  | chat message =>
    refine ⟨some op, ?_⟩
    rw [send, request_naming]
    exact .ask there
  | edit path range instruction options =>
    refine ⟨some op, ?_⟩
    rw [send, request_naming]
    exact .ask there

theorem prepare_naming (there : w.naming.given[op]? = some ⟨own, none⟩) (assistant : Option AssistantRecord)
    (token : Token) (extras : Extras) (ask : Ask) :
    ∃ asked, w.naming.Asks w.millis asked (w.prepare op assistant token extras ask).naming := by
  obtain ⟨f, -, h⟩ | ⟨context, reply, -, h⟩ | ⟨context, h⟩ := w.prepare_cases op assistant token extras ask
  · rw [h, conclude_naming]
    exact ⟨none, .none⟩
  · rw [h, setStage_naming]
    exact ⟨none, .none⟩
  · rw [h]
    exact send_naming there assistant token context ask

theorem entered_naming (w : World) (token : Token) : (w.entered token).naming = w.naming.enter :=
  Names.ext rfl rfl rfl rfl List.map_append

theorem assigned_naming (w : World) (token : Token) (a : Assignment) :
    (w.assigned token a).naming = w.naming.assign w.millis :=
  Names.ext rfl rfl rfl rfl List.map_append

theorem entered_given (w : World) (token : Token) : (w.entered token).naming.given[w.operations.length]? = some {} := by
  have hlength : (w.operations.map (·.ids)).length = w.operations.length := List.length_map _
  rw [entered_naming, ← hlength]
  exact List.getElem?_concat_length

theorem assigned_given (w : World) (token : Token) (a : Assignment) :
    (w.assigned token a).naming.given[w.operations.length]? = some ⟨some (w.recordOf a).id, none⟩ := by
  have hlength : (w.operations.map (·.ids)).length = w.operations.length := List.length_map _
  rw [assigned_naming, ← hlength]
  exact List.getElem?_concat_length

/-- **An operation begins**: one of the assistant takes the next id of the assistant, and a request to the service makes
its request at once. -/
theorem begin_naming (w : World) (order : Order) (token : Token) :
    ∃ n asked, w.naming.Opens w.millis (some order) n ∧ n.Asks w.millis asked (w.begin order token).1.naming ∧
      ∀ operation kind payload context, order = .service operation kind payload context →
        asked = some w.operations.length := by
  have hthere := w.entered_given token
  have hentered := w.entered_naming token
  cases order with
  | bare kind payload context =>
    refine ⟨_, none, (.enter fun _ h => by cases h), ?_, fun _ _ _ _ h => by cases h⟩
    cases h : FanOut.invited w.service.ledger.registry kind (w.isCancelled token) with
    | error f =>
      rw [begin_bare_refused h, complete_naming, hentered]
      exact .none
    | ok ps =>
      rw [begin_bare_launched h, setStage_naming]
      exact hentered ▸ .none
  | service operation kind payload context =>
    refine ⟨_, some w.operations.length, (.enter fun _ h => by cases h), ?_, fun _ _ _ _ _ => rfl⟩
    have hrequest := (w.entered token).request_naming w.operations.length none token operation kind payload context
    rw [hentered] at hrequest hthere
    exact hrequest ▸ .ask hthere
  | assistant a =>
    obtain ⟨asked, hasks⟩ := prepare_naming (w.assigned_given token a) (some (w.recordOf a)) token a.extras a.ask
    rw [← begin_assistant, assigned_naming] at hasks
    exact ⟨_, asked, .assign a, hasks, fun _ _ _ _ h => by cases h⟩
  | context extras =>
    obtain ⟨asked, hasks⟩ := prepare_naming hthere none token extras .context
    rw [hentered] at hasks
    exact ⟨_, asked, (.enter fun _ h => by cases h), hasks, fun _ _ _ _ h => by cases h⟩

theorem given_of (ho : w.operations[op]? = some o) (hr : o.request = none) :
    w.naming.given[op]? = some ⟨o.assistant.map (·.id), none⟩ := by
  have hgiven : (w.operations.map (·.ids))[op]? = some o.ids := by rw [List.getElem?_map, ho]; rfl
  rw [Operation.ids, hr] at hgiven
  exact hgiven

/-- An operation gets on. -/
theorem resume_naming (ho : w.operations[op]? = some o)
    (hresolving : ∀ context ask task, o.stage = .resolving context ask task → o.request = none)
    (h : w.resume op o = some v) : ∃ asked, w.naming.Asks w.millis asked v.naming := by
  cases resume_resumes h with
  | cutShort _ _ => exact ⟨none, (w.conclude_naming op _ _).symm ▸ .none⟩
  | sends stage => exact send_naming (given_of ho (hresolving _ _ _ stage)) _ _ _ _
  | lands _ _ _ => exact ⟨none, (w.complete_naming op _).symm ▸ .none⟩
  | decides _ _ _ => exact ⟨none, (w.decide_naming op _ _ _).symm ▸ .none⟩
  | relays _ => exact ⟨none, (w.relay_naming op _ _ _).symm ▸ .none⟩

theorem abort_naming (w : World) (op : Nat) : (w.abort op).naming = w.naming := by
  have habort := w.abort_aborts op
  generalize w.abort op = v at habort ⊢
  cases habort with
  | idle _ => rfl
  | resolving _ _ => exact conclude_naming _ op _ _
  | flying _ _ _ => exact w.complete_naming op _
  | requesting _ _ _ => rw [conclude_naming, announce_naming, countFailure_naming]
  | relaying _ _ => exact conclude_naming _ op _ _

/-- **Whatever occurs**, an operation begins or none, and then at most one makes a request; a request that is ordered from
the service is made. -/
theorem occur_naming (hresolving : ∀ o ∈ w.operations, ∀ context ask task, o.stage = .resolving context ask task →
    o.request = none) (x : Occurrence) :
    ∃ n asked, w.naming.Opens w.millis x.order? n ∧ n.Asks w.millis asked (w.occur x).naming ∧
      ∀ operation kind payload context, x.order? = some (.service operation kind payload context) →
        asked = some w.operations.length := by
  have hsame : ∀ {x : Occurrence} {v : World}, x.order? = none → v.naming = w.naming →
      ∃ n asked, w.naming.Opens w.millis x.order? n ∧ n.Asks w.millis asked v.naming ∧
        ∀ operation kind payload context, x.order? = some (.service operation kind payload context) →
          asked = some w.operations.length := by
    intro x v hx hv
    rw [hx, hv]
    exact ⟨w.naming, none, .none, .none, fun _ _ _ _ h => by cases h⟩
  cases x with
  | begin order token =>
    obtain ⟨n, asked, hopens, hasks, hservice⟩ := w.begin_naming order token
    exact ⟨n, asked, hopens, hasks, fun operation kind payload context h =>
      hservice operation kind payload context (Option.some.inj h)⟩
  | resume op =>
    simp only [occur]
    cases ho : w.operations[op]? with
    | none => exact hsame rfl rfl
    | some o =>
      rw [Option.bind_some]
      cases hr : w.resume op o with
      | none => exact hsame rfl rfl
      | some v =>
        obtain ⟨asked, hasks⟩ := resume_naming ho (hresolving o (List.mem_of_getElem? ho)) hr
        exact ⟨w.naming, asked, .none, hasks, fun _ _ _ _ h => by cases h⟩
  | abort op => exact hsame rfl (w.abort_naming op)
  | clock c => exact hsame rfl rfl
  | tell => exact hsame rfl (foldl_naming log_naming _ w)
  | due => exact hsame rfl w.doDue_naming
  | deed d => exact hsame rfl (w.doDeed_naming d)
  | register p kinds =>
    simp only [occur]
    split
    · exact hsame rfl rfl
    · next h => exact hsame rfl (register_naming h)
  | dispose handle => exact hsame rfl (w.dispose_naming handle)
  | onDispose handle callback => exact hsame rfl rfl
  | listen stream name reaction => exact hsame rfl (w.listen_naming stream name reaction)
  | unlisten name => exact hsame rfl (w.unlisten_naming name)
  | setContext extras fields =>
    simp only [occur]
    split
    · exact hsame rfl rfl
    · next h => exact hsame rfl (setContext_naming h)
  | commit extras fields =>
    simp only [occur]
    split
    · exact hsame rfl rfl
    · next h => exact hsame rfl (commit_naming h)
  | clearContext => exact hsame rfl rfl
  | close => exact hsame rfl w.close_naming

end World

end Orchestra
