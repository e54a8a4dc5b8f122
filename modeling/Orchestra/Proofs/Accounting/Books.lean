import Orchestra.Proofs.Service.Course
import Orchestra.Proofs.Service.Deeds

/-!
# Orchestra.Proofs.Accounting.Books — what the accounts of a service depend on

The books of a world are its operations, its counts, and the events that answer requests to the service.  Hooks,
listeners, contexts and registrations leave the books alone, however they react on each other (`fire_books`); what does
not is the end of a request, which is counted and published in one go (`decide_books`).
-/

namespace Orchestra

namespace BusEvent

/-- The id of what an event answers; a change of the context answers nothing. -/
def id? : BusEvent → Option RequestId
  | response id _ _ _ => some id
  | error id _ _ _ => some id
  | context _ => none

/-- The event answers a request to the service: ids of the service tell. -/
def ofService (e : BusEvent) : Bool := e.id?.any (·.source == RequestIds.service.source)

/-- How long a response took. -/
def took? : BusEvent → Option Nat
  | response _ _ _ ticks => some ticks
  | _ => none

def isError : BusEvent → Bool
  | error _ _ _ _ => true
  | _ => false

end BusEvent

/-- The event that answers a request with this outcome. -/
def RequestRecord.event (r : RequestRecord) (outcome : Except Fault Result) (ticks : Nat) : BusEvent :=
  match outcome with
  | .ok result => .response r.id (.capability r.kind) (.result result) ticks
  | .error f => .error r.id f r.operation ticks

@[simp] theorem RequestRecord.event_id? (r : RequestRecord) (outcome : Except Fault Result) (ticks : Nat) :
    (r.event outcome ticks).id? = some r.id := by cases outcome <;> rfl

/-- The event by which an operation of the assistant tells of its outcome. -/
def AssistantRecord.event (a : AssistantRecord) (outcome : Except Fault Answer) (ticks : Nat) : BusEvent :=
  match outcome with
  | .ok answer => .response a.id (.operation a.operation) answer ticks
  | .error f => .error a.id f a.operation ticks

@[simp] theorem AssistantRecord.event_id? (a : AssistantRecord) (outcome : Except Fault Answer) (ticks : Nat) :
    (a.event outcome ticks).id? = some a.id := by cases outcome <;> rfl

/-- What the caller gets of the outcome of a request; an operation of the assistant makes something of it. -/
def answerTo (assistant : Option AssistantRecord) (outcome : Except Fault Result) : Except Fault Answer :=
  match assistant with
  | none => outcome.map .result
  | some a => outcome.bind a.reading.read

@[ext] structure Books where
  /-- What a success is to the caller. -/
  handed : Result → Except Fault Result
  now : Tick
  operations : List Operation
  requests : Nat
  errors : Nat
  successes : Nat
  busy : Nat
  ids : RequestIds
  assistantIds : RequestIds
  /-- The events that answer requests to the service, in order. -/
  events : List BusEvent

namespace Books

def modify (b : Books) (op : Nat) (f : Operation → Operation) : Books :=
  { b with operations := b.operations.modify op f }

def setStage (b : Books) (op : Nat) (stage : Stage) : Books := b.modify op fun o => { o with stage }

/-- The books after an event: one that answers no request to the service is not in them. -/
def publish (b : Books) (e : BusEvent) : Books := { b with events := b.events ++ [e].filter (·.ofService) }

/-- The books after a request has been decided: counted by its outcome, and answered by its event. -/
def decide (b : Books) (record : RequestRecord) (outcome : Except Fault Result) : Books :=
  let ticks := b.now - record.startedAt
  match outcome with
  | .ok _ => { b with successes := b.successes + 1, busy := b.busy + ticks }.publish (record.event outcome ticks)
  | .error _ => { b with errors := b.errors + 1 }.publish (record.event outcome ticks)

/-- The books after a request has been made by the operation of that number. -/
def ask (b : Books) (op : Nat) (record : RequestRecord) : Books :=
  { b with requests := b.requests + 1, ids := { b.ids with issued := b.ids.issued + 1 } }.modify op fun o =>
    { o with request := some record }

end Books

namespace World

def books (w : World) : Books where
  handed := w.handed
  now := w.now
  operations := w.operations
  requests := w.service.requests
  errors := w.service.errors
  successes := w.service.successes
  busy := w.service.busy
  ids := w.service.ids
  assistantIds := w.assistantIds
  events := w.published.filter (·.ofService)

variable {u v w : World}

/-! ### What leaves the books alone -/

@[simp] theorem log_books (w : World) (e : Entry) : (w.log e).books = w.books := rfl

@[simp] theorem announce_books (w : World) (hook : Hook) : (w.announce hook).books = w.books := by
  unfold announce
  split <;> rfl

@[simp] theorem hush_books (w : World) (number : Nat) : (w.hush number).books = w.books := rfl

@[simp] theorem listen_books (w : World) (stream : Stream) (name : String) (reaction : Option Reaction) :
    (w.listen stream name reaction).books = w.books := rfl

@[simp] theorem unlisten_books (w : World) (name : String) : (w.unlisten name).books = w.books := by
  unfold unlisten
  split <;> rfl

theorem commit_books {extras : Extras} {fields : Changes} {update : ContextUpdate}
    (h : w.commit extras fields = .ok (v, update)) : v.books = w.books := by
  unfold commit at h
  rcases hc : w.service.context.set extras fields with f | ⟨context, changed⟩
  · rw [hc] at h; cases h
  · rw [hc] at h; cases h; rfl

theorem foldl_books {α : Type} {f : World → α → World} (hf : ∀ w a, (f w a).books = w.books) (as : List α) (w : World) :
    (as.foldl f w).books = w.books := by
  induction as generalizing w with
  | nil => rfl
  | cons a as ih => rw [List.foldl_cons, ih, hf]

theorem tellAll_books (w : World) : w.tellAll.books = w.books := foldl_books log_books _ w

theorem withLedger_books (w : World) (clock : Clockwork) (ledger : Ledger ServiceCallback) (owned : List Nat)
    (hnow : clock.now = w.now) : ({ w.withLedger ledger owned with clock } : World).books = w.books := by
  ext1 <;> first | rfl | exact hnow

theorem register_books {p : ProviderRef} {kinds : Option (List Capability)} {handle : Nat}
    (h : w.register p kinds = .ok (v, handle)) : v.books = w.books := by
  obtain ⟨ledger, -, rfl⟩ := register_eq h
  rfl

theorem dispose_books (w : World) (handle : Nat) : (w.dispose handle).1.books = w.books := by
  obtain ⟨clock, ledger, owned, h, touched⟩ := dispose_eq w handle
  rw [h]
  exact w.withLedger_books clock ledger owned touched.now

theorem doDeed_books (w : World) (d : Deed) : (w.doDeed d).books = w.books := by
  obtain ⟨clock, ledger, owned, h, touched⟩ := doDeed_eq w d
  rw [h]
  exact w.withLedger_books clock ledger owned touched.now

theorem doDue_books (w : World) : w.doDue.books = w.books := by
  obtain ⟨clock, ledger, owned, h, touched⟩ := doDue_eq w
  rw [h]
  exact w.withLedger_books clock ledger owned touched.now

theorem close_books (w : World) : w.close.1.books = w.books := by
  obtain ⟨clock, ledger, owned, tellings, h, touched, -⟩ := close_eq w
  rw [h]
  exact w.withLedger_books clock ledger owned touched.now

/-! ### Events -/

theorem publish_books (w : World) (e : BusEvent) :
    ({ w with published := w.published ++ [e] } : World).books = w.books.publish e := by
  ext1 <;> first | rfl | exact List.filter_append ..

theorem deliver_succ_books {depth : Nat} (hnested : ∀ w update, (deliver depth w (.context update)).books = w.books)
    (w : World) (e : BusEvent) : (deliver (depth + 1) w e).books = w.books.publish e := by
  rw [deliver]
  refine (foldl_books (fun w l => ?_) _ _).trans (w.publish_books e)
  dsimp only
  split
  · rfl
  · rfl
  · next another withdrawn language _ =>
    -- who else listens or no longer listens is not in the books, so only the update of the context is left
    have hupdate : ∀ {v v' : World} {update : ContextUpdate},
        v.commit .nothing [.language language] = .ok (v', update) → v.books = w.books →
        ((deliver depth v' (.context update)).announce (.contextChanged update)).books = w.books := by
      intro v v' update hcommit hv
      rw [announce_books, hnested, commit_books hcommit, hv]
    rcases another with _ | ⟨stream, name⟩ <;> rcases withdrawn with _ | withdrawn <;> rcases language with _ | s
    all_goals dsimp only
    all_goals try split
    all_goals first | exact hupdate ‹_› (by simp) | simp

/-- A change of the context enters nothing, however deep listeners react to it. -/
theorem deliver_context_books (depth : Nat) (w : World) (update : ContextUpdate) :
    (deliver depth w (.context update)).books = w.books := by
  induction depth generalizing w update with
  | zero => rfl
  | succ depth ih =>
    rw [deliver_succ_books ih]
    exact Books.ext rfl rfl rfl rfl rfl rfl rfl rfl rfl (List.append_nil _)

/-- **An event** enters the books if it answers a request to the service.  What listeners do when they hear of it, and
what others do when they hear of that, enters nothing. -/
theorem fire_books (w : World) (e : BusEvent) : (w.fire e).books = w.books.publish e :=
  deliver_succ_books (deliver_context_books _) w e

theorem setContext_books {extras : Extras} {fields : Changes} {context : Context}
    (h : w.setContext extras fields = .ok (v, context)) : v.books = w.books := by
  unfold setContext at h
  rcases hc : w.commit extras fields with f | ⟨w', update⟩
  · rw [hc] at h; cases h
  · rw [hc] at h
    cases h
    rw [announce_books]
    exact (deliver_context_books _ w' update).trans (commit_books hc)

/-! ### The end of a request -/

@[simp] theorem setStage_books (w : World) (op : Nat) (stage : Stage) :
    (w.setStage op stage).books = w.books.setStage op stage := rfl

@[simp] theorem complete_books (w : World) (op : Nat) (outcome : Except Fault Answer) :
    (w.complete op outcome).books = w.books.setStage op (.done outcome w.books.now) := rfl

/-- The event of an operation of the assistant is not one of the service. -/
theorem publish_foreign {b : Books} {e : BusEvent} {id : RequestId} (hid : e.id? = some id)
    (hsource : id.source = RequestIds.assistant.source) : b.publish e = b := by
  have hforeign : e.ofService = false := by
    rw [BusEvent.ofService, hid, Option.any_some, hsource]
    decide
  refine Books.ext rfl rfl rfl rfl rfl rfl rfl rfl rfl ?_
  show b.events ++ [e].filter (·.ofService) = b.events
  rw [List.filter_cons_of_neg (by simp [hforeign]), List.filter_nil, List.append_nil]

/-- The assistant's ids are of its own source. -/
def Foreign (assistant : Option AssistantRecord) : Prop :=
  ∀ a, assistant = some a → a.id.source = RequestIds.assistant.source

/-- The caller is given the answer; listeners are told before if it is the assistant's and no interruption. -/
theorem conclude_cases (w : World) (op : Nat) (assistant : Option AssistantRecord) (outcome : Except Fault Result) :
    ((assistant = none ∨ answerTo assistant outcome = .error .interrupted) ∧
      w.conclude op assistant outcome = w.complete op (answerTo assistant outcome)) ∨
    ∃ a, assistant = some a ∧ answerTo assistant outcome ≠ .error .interrupted ∧
      w.conclude op assistant outcome =
        (w.fire (a.event (answerTo assistant outcome) (w.now - a.startedAt))).complete op (answerTo assistant outcome) := by
  cases assistant with
  | none => exact .inl ⟨.inl rfl, rfl⟩
  | some a =>
    have hanswer : answerTo (some a) outcome = outcome.bind a.reading.read := rfl
    unfold conclude
    dsimp only
    rw [hanswer]
    split
    · next h => exact .inl ⟨.inr h, by rw [h]⟩
    · next f hne h => exact .inr ⟨a, rfl, by rw [h]; exact fun heq => hne (Except.error.inj heq), by rw [h]; rfl⟩
    · next answer h => exact .inr ⟨a, rfl, by rw [h]; exact nofun, by rw [h]; rfl⟩

theorem conclude_books {assistant : Option AssistantRecord} (ha : Foreign assistant) (w : World) (op : Nat)
    (outcome : Except Fault Result) :
    (w.conclude op assistant outcome).books =
      w.books.setStage op (.done (answerTo assistant outcome) w.books.now) := by
  obtain ⟨-, h⟩ | ⟨a, rfl, -, h⟩ := w.conclude_cases op assistant outcome
  · rw [h, complete_books]
  · rw [h, complete_books, fire_books, publish_foreign (a.event_id? _ _) (ha a rfl)]

/-- The stages of an operation whose outcome stands: hooks are being told of it, or the caller has been given what it
comes to. -/
def Concluding (assistant : Option AssistantRecord) (outcome : Except Fault Result) (stage : Stage) : Prop :=
  (∃ telling queue, stage = .relaying telling queue outcome) ∨
    ∃ tick, stage = .done (answerTo assistant outcome) tick

theorem relay_books {assistant : Option AssistantRecord} (ha : Foreign assistant) (w : World) (op : Nat)
    (outcome : Except Fault Result) (queue : List Hook) :
    ∃ stage, Concluding assistant outcome stage ∧
      (w.relay op assistant outcome queue).books = w.books.setStage op stage := by
  induction queue generalizing w with
  | nil => exact ⟨_, .inr ⟨_, rfl⟩, conclude_books ha w op outcome⟩
  | cons hook rest ih =>
    rw [relay_cons]
    split
    · exact ⟨_, .inr ⟨_, rfl⟩, conclude_books ha w op outcome⟩
    · split
      · exact ih (w.log (.hook hook))
      · exact ⟨_, .inl ⟨_, _, rfl⟩, rfl⟩

theorem countSuccess_books (w : World) (record : RequestRecord) (r : Result) :
    (w.countSuccess record r).books = w.books.decide record (.ok r) := fire_books _ _

theorem countFailure_books (w : World) (record : RequestRecord) (f : Fault) :
    (w.countFailure record f).books = w.books.decide record (.error f) := fire_books _ _

/-- **A decision** is counted and published, and then nothing but the stage of its operation changes. -/
theorem decide_books {assistant : Option AssistantRecord} (ha : Foreign assistant) (w : World) (op : Nat)
    (record : RequestRecord) (outcome : Except Fault Result) :
    ∃ stage, Concluding assistant (outcome.bind w.handed) stage ∧
      (w.decide op assistant record outcome).books = (w.books.decide record outcome).setStage op stage := by
  cases outcome with
  | ok r =>
    rw [← countSuccess_books]
    exact relay_books ha _ op (w.handed r) _
  | error f =>
    rw [← countFailure_books]
    exact relay_books ha _ op (.error f) _

end World

end Orchestra
