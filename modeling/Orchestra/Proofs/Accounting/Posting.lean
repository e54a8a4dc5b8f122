import Orchestra.Proofs.Accounting.Books
import Orchestra.Proofs.Accounting.Occurrence
import Orchestra.Proofs.Service.Course

/-!
# Orchestra.Proofs.Accounting.Posting — what an occurrence does to the books

Most of what occurs leaves the books as they are.  What does not is one posting for one operation (`occur_posts`): a
request is launched, or refused at once, or decided, its outcome is passed on or lost, or an operation goes on that has
made no request.
-/

namespace Orchestra

namespace Books

/-- The books after an operation has begun. -/
def enter (b : Books) (o : Operation) (assistantIds : RequestIds) : Books :=
  { b with operations := b.operations ++ [o], assistantIds }

/-- The record of a request that is made now. -/
structure Fresh (b : Books) (x : Occurrence) (record : RequestRecord) : Prop where
  source : record.id.source = b.ids.source
  count : record.id.count = b.ids.issued
  startedAt : record.startedAt = b.now
  asks : x.Asks record.operation record.kind

/-- An operation was not yet there and made no request, or nothing changed. -/
inductive Entered (b : Books) : Books → Prop
  | same : Entered b b
  | enter (o : Operation) (assistantIds : RequestIds) (request : o.request = none)
      (foreign : World.Foreign o.assistant) (source : assistantIds.source = b.assistantIds.source) :
      Entered b (b.enter o assistantIds)

/-- What an occurrence can do to an operation that is there. -/
inductive Posting (x : Occurrence) (b : Books) : Books → Prop
  | idle (now : Tick) : Posting x b { b with now }
  /-- An operation goes on that has made no request. -/
  | plain {op : Nat} {o : Operation} {stage : Stage} (there : b.operations[op]? = some o) (request : o.request = none) :
      Posting x b (b.setStage op stage)
  | launch {op : Nat} {o : Operation} {record : RequestRecord} {flight : Flight}
      (there : b.operations[op]? = some o) (request : o.request = none) (fresh : b.Fresh x record) :
      Posting x b ((b.ask op record).setStage op (.flying flight))
  /-- A request is made that is decided at once: no provider is called. -/
  | refuse {op : Nat} {o : Operation} {record : RequestRecord} {f : Fault} {stage : Stage}
      (there : b.operations[op]? = some o) (request : o.request = none) (fresh : b.Fresh x record)
      (concluding : World.Concluding o.assistant (.error f) stage) :
      Posting x b (((b.ask op record).decide record (.error f)).setStage op stage)
  | decide {op : Nat} {o : Operation} {record : RequestRecord} {flight : Flight} {outcome : Except Fault Result}
      {stage : Stage} (there : b.operations[op]? = some o) (request : o.request = some record)
      (flying : o.stage = .flying flight) (concluding : World.Concluding o.assistant (outcome.bind b.handed) stage) :
      Posting x b ((b.decide record outcome).setStage op stage)
  | relay {op : Nat} {o : Operation} {record : RequestRecord} {telling : Nat} {queue : List Hook}
      {outcome : Except Fault Result} {stage : Stage} (there : b.operations[op]? = some o)
      (request : o.request = some record) (relaying : o.stage = .relaying telling queue outcome)
      (concluding : World.Concluding o.assistant outcome stage) :
      Posting x b (b.setStage op stage)
  /-- The task of the operation is cancelled while hooks are being told: the outcome is lost to the caller. -/
  | drop {op : Nat} {o : Operation} {record : RequestRecord} {telling : Nat} {queue : List Hook}
      {outcome : Except Fault Result} {tick : Tick} (abort : x = .abort op) (there : b.operations[op]? = some o)
      (request : o.request = some record) (relaying : o.stage = .relaying telling queue outcome) :
      Posting x b (b.setStage op (.done (.error .interrupted) tick))

end Books

namespace World

open Books

variable {w : World} {x : Occurrence} {op : Nat} {o : Operation} {token : Token}

/-- **A request** is launched, or refused and decided at once. -/
theorem request_posts {operation : String} {kind : Capability} (hx : x.Asks operation kind)
    (there : w.books.operations[op]? = some o) (hr : o.request = none) (ha : Foreign o.assistant) (payload : Payload)
    (context : Option Context) :
    Posting x w.books (w.request op o.assistant token operation kind payload context).books := by
  have hfresh : w.books.Fresh x (w.newRequest operation kind).2 := ⟨rfl, rfl, rfl, hx⟩
  have hasked : (w.asked op operation kind).books = w.books.ask op (w.newRequest operation kind).2 := rfl
  cases h : FanOut.invited w.service.ledger.registry kind (w.isCancelled token) with
  | error f =>
    obtain ⟨stage, hstage, hdecided⟩ :=
      decide_books ha (w.asked op operation kind) op (w.newRequest operation kind).2 (.error f)
    rw [request_refused h, hdecided, hasked]
    exact .refuse there hr hfresh hstage
  | ok ps =>
    rw [request_launched h, setStage_books]
    exact .launch there hr hfresh

theorem send_posts (hx : x.Assists)
    (there : w.books.operations[op]? = some o) (hr : o.request = none) (ha : Foreign o.assistant) (context : Context)
    (ask : Ask) : Posting x w.books (w.send op o.assistant token context ask).books := by
  cases ask with
  | context => exact .plain there hr
  | chat message => exact request_posts hx.1 there hr ha _ _
  | edit path range instruction options => exact request_posts hx.2 there hr ha _ _

theorem prepare_posts (hx : x.Assists)
    (there : w.books.operations[op]? = some o) (hr : o.request = none) (ha : Foreign o.assistant) (extras : Extras)
    (ask : Ask) : Posting x w.books (w.prepare op o.assistant token extras ask).books := by
  obtain ⟨f, -, h⟩ | ⟨context, reply, -, h⟩ | ⟨context, h⟩ := w.prepare_cases op o.assistant token extras ask
  · rw [h, conclude_books ha]
    exact .plain there hr
  · rw [h]
    exact .plain there hr
  · rw [h]
    exact send_posts hx there hr ha context ask

/-- The assistant can ask when an operation gets on, and when one begins that is its own. -/
theorem resume_assists (op : Nat) : (Occurrence.resume op).Assists := ⟨.inl ⟨rfl, rfl⟩, .inr ⟨rfl, rfl⟩⟩

/-- **An operation begins** as one that has made no request. -/
theorem begin_posts (w : World) (order : Order) (token : Token)
    (hsource : w.assistantIds.source = RequestIds.assistant.source) :
    ∃ b, Entered w.books b ∧ Posting (.begin order token) b (w.begin order token).1.books := by
  have hnone : Foreign none := fun a ha => nomatch ha
  let fresh : Operation := { token, stage := .done (.error .interrupted) w.now }
  have hthere : (w.entered token).books.operations[w.operations.length]? = some fresh := List.getElem?_concat_length
  have hentered : Entered w.books (w.entered token).books := .enter fresh w.assistantIds rfl hnone rfl
  cases order with
  | bare kind payload context =>
    refine ⟨(w.entered token).books, hentered, ?_⟩
    cases h : FanOut.invited w.service.ledger.registry kind (w.isCancelled token) with
    | error f =>
      rw [begin_bare_refused h]
      exact .plain hthere rfl
    | ok ps =>
      rw [begin_bare_launched h]
      exact .plain hthere rfl
  | service operation kind payload context =>
    have hasks : (Occurrence.begin (.service operation kind payload context) token).Asks operation kind := ⟨rfl, rfl⟩
    exact ⟨(w.entered token).books, hentered, request_posts (o := fresh) hasks hthere rfl hnone payload context⟩
  | assistant a =>
    have hassists : (Occurrence.begin (.assistant a) token).Assists := ⟨.inl ⟨rfl, rfl⟩, .inr ⟨rfl, rfl⟩⟩
    let o : Operation := { fresh with assistant := some (w.recordOf a) }
    have hforeign : Foreign o.assistant := by
      rintro _ ⟨⟩
      exact hsource
    have hentered : Entered w.books (w.assigned token a).books := .enter o _ rfl hforeign rfl
    have hthere : (w.assigned token a).books.operations[w.operations.length]? = some o := List.getElem?_concat_length
    rw [begin_assistant]
    exact ⟨_, hentered, prepare_posts (o := o) hassists hthere rfl hforeign a.extras a.ask⟩
  | context extras =>
    have hassists : (Occurrence.begin (.context extras) token).Assists := ⟨.inl ⟨rfl, rfl⟩, .inr ⟨rfl, rfl⟩⟩
    exact ⟨(w.entered token).books, hentered, prepare_posts (o := fresh) hassists hthere rfl hnone extras _⟩

/-! ### Operations that are there -/

variable (hforeign : Foreign o.assistant)
  (hresolving : ∀ context ask task, o.stage = .resolving context ask task → o.request = none)

include hforeign hresolving

/-- **An operation gets on.** -/
theorem resume_posts {v : World} (there : w.books.operations[op]? = some o) (h : w.resume op o = some v) :
    Posting (.resume op) w.books v.books := by
  cases resume_resumes h with
  | cutShort stage _ =>
    rw [conclude_books hforeign]
    exact .plain there (hresolving _ _ _ stage)
  | sends stage => exact send_posts (resume_assists op) there (hresolving _ _ _ stage) hforeign _ _
  | lands _ _ bare => exact .plain there bare
  | decides stage _ request =>
    obtain ⟨next, hconcluding, hbooks⟩ := decide_books hforeign w op _ _
    rw [hbooks]
    exact .decide there request stage hconcluding
  | relays stage =>
    obtain ⟨next, hconcluding, hbooks⟩ := relay_books hforeign w op _ _
    rw [hbooks]
    cases hr : o.request with
    | none => exact .plain there hr
    | some record => exact .relay there hr stage hconcluding

/-- **An operation is aborted** where it is. -/
theorem abort_posts (there : w.operations[op]? = some o) :
    Posting (.abort op) w.books (w.abort op).books := by
  have habort := w.abort_aborts op
  generalize w.abort op = v at habort ⊢
  have hlost : answerTo o.assistant (.error .interrupted) = .error .interrupted := by cases o.assistant <;> rfl
  cases habort with
  | idle _ => exact .idle w.books.now
  | resolving there' stage =>
    cases there.symm.trans there'
    rw [conclude_books hforeign]
    exact .plain there (hresolving _ _ _ stage)
  | flying there' _ bare =>
    cases there.symm.trans there'
    exact .plain there bare
  | requesting there' stage request =>
    cases there.symm.trans there'
    rw [conclude_books hforeign, announce_books, countFailure_books]
    exact .decide there request stage (.inr ⟨_, rfl⟩)
  | relaying there' stage =>
    cases there.symm.trans there'
    rw [conclude_books hforeign, hush_books, hlost]
    cases hr : o.request with
    | none => exact .plain there hr
    | some record => exact .drop rfl there hr stage

end World

namespace World

open Books

variable {w v : World} {x : Occurrence}

theorem idle_posts (h : v.books = w.books) : Posting x w.books v.books := by
  rw [h]
  exact .idle w.books.now

/-- **Whatever occurs** is one posting in the books, after an operation has begun or none has. -/
theorem occur_posts (x : Occurrence) (hsource : w.assistantIds.source = RequestIds.assistant.source)
    (hforeign : ∀ o ∈ w.operations, Foreign o.assistant)
    (hresolving : ∀ o ∈ w.operations, ∀ context ask task, o.stage = .resolving context ask task → o.request = none) :
    ∃ b, Entered w.books b ∧ Posting x b (w.occur x).books := by
  have hidle : ∀ {v : World}, v.books = w.books → ∃ b, Entered w.books b ∧ Posting x b v.books :=
    fun h => ⟨w.books, .same, idle_posts h⟩
  cases x with
  | begin order token => exact w.begin_posts order token hsource
  | resume op =>
    simp only [occur]
    cases ho : w.operations[op]? with
    | none => exact hidle rfl
    | some o =>
      have hmem := List.mem_of_getElem? ho
      rw [Option.bind_some]
      cases hr : w.resume op o with
      | none => exact hidle rfl
      | some v => exact ⟨w.books, .same, resume_posts (hforeign o hmem) (hresolving o hmem) ho hr⟩
  | abort op =>
    cases ho : w.operations[op]? with
    | none =>
      exact hidle (congrArg books (abort_of_done fun o h => by rw [ho] at h; cases h))
    | some o =>
      have hmem := List.mem_of_getElem? ho
      exact ⟨w.books, .same, abort_posts (hforeign o hmem) (hresolving o hmem) ho⟩
  | clock c => exact ⟨w.books, .same, .idle c.now⟩
  | tell => exact hidle w.tellAll_books
  | due => exact hidle w.doDue_books
  | deed d => exact hidle (w.doDeed_books d)
  | register p kinds =>
    simp only [occur]
    split
    · exact hidle rfl
    · next h => exact hidle (register_books h)
  | dispose handle => exact hidle (w.dispose_books handle)
  | onDispose handle callback => exact hidle rfl
  | listen stream name reaction => exact hidle (w.listen_books stream name reaction)
  | unlisten name => exact hidle (w.unlisten_books name)
  | setContext extras fields =>
    simp only [occur]
    split
    · exact hidle rfl
    · next h => exact hidle (setContext_books h)
  | commit extras fields =>
    simp only [occur]
    split
    · exact hidle rfl
    · next h => exact hidle (commit_books h)
  | clearContext => exact hidle rfl
  | close => exact hidle w.close_books

end World

end Orchestra
