import Orchestra.Proofs.Accounting.Posting

/-!
# Orchestra.Proofs.Accounting.Balance — the books balance

Every request that was made is an error, a success or undecided, and the counts are those of the events.  Every posting
keeps it so (`Posting.balanced`), and with it that no two requests share an id, which is what tells their events apart.
-/

namespace Orchestra

/-- The request of the operation waits for a decision. -/
def Operation.undecided (o : Operation) : Bool :=
  o.request.isSome && match o.stage with
    | .flying _ => true
    | _ => false

namespace Books

/-- The durations of the responses among events. -/
def durations (es : List BusEvent) : List Nat := es.filterMap (·.took?)

def total (ticks : List Nat) : Nat := ticks.foldr (· + ·) 0

/-- The requests that have been made, in the order of their operations. -/
def made (b : Books) : List RequestRecord := b.operations.filterMap (·.request)

/-- Requests are told apart by the counts in their ids, every event is one of theirs, and the counts of outcomes are those
of the events. -/
structure Kept (b : Books) : Prop where
  source : b.ids.source = RequestIds.service.source
  assistantSource : b.assistantIds.source = RequestIds.assistant.source
  foreign : ∀ o ∈ b.operations, World.Foreign o.assistant
  issued : ∀ r ∈ b.made, r.id.source = RequestIds.service.source ∧ r.id.count < b.ids.issued
  distinct : (b.made.map (·.id)).Nodup
  known : ∀ e ∈ b.events, ∃ r ∈ b.made, e.id? = some r.id
  errors : b.errors = b.events.countP (·.isError)
  successes : b.successes = (durations b.events).length
  busy : b.busy = total (durations b.events)

structure Balanced (b : Books) : Prop extends Kept b where
  resolving : ∀ o ∈ b.operations, ∀ context ask task, o.stage = .resolving context ask task → o.request = none
  requests : b.requests = b.errors + b.successes + b.operations.countP (·.undecided)

variable {b b' : Books} {x : Occurrence} {op : Nat} {o : Operation} {record : RequestRecord}
  {outcome : Except Fault Result} {stage : Stage}

/-! ### One operation among the others -/

theorem modify_split (there : b.operations[op]? = some o) (f : Operation → Operation) :
    ∃ before later, b.operations = before ++ o :: later ∧ (b.modify op f).operations = before ++ f o :: later := by
  obtain ⟨hlt, hget⟩ := List.getElem?_eq_some_iff.mp there
  obtain ⟨before, a, later, hops, hlen, hmodify⟩ := List.exists_of_modify f hlt
  have ha : a = o := by
    rw [← hget]
    simp [hops, ← hlen]
  subst ha
  exact ⟨before, later, hops, hmodify⟩

theorem modify_self (there : b.operations[op]? = some o) (f : Operation → Operation) :
    (b.modify op f).operations[op]? = some (f o) := by
  show (b.operations.modify op f)[op]? = some (f o)
  rw [List.getElem?_modify_eq, there]
  rfl

theorem modify_other {op' : Nat} (h : op ≠ op') (f : Operation → Operation) :
    (b.modify op f).operations[op']? = b.operations[op']? := List.getElem?_modify_ne f _ h

theorem foreign_modify (there : b.operations[op]? = some o) {f : Operation → Operation}
    (h : ∀ o ∈ b.operations, World.Foreign o.assistant)
    (hf : World.Foreign o.assistant → World.Foreign (f o).assistant) :
    ∀ o ∈ (b.modify op f).operations, World.Foreign o.assistant := by
  obtain ⟨before, later, hops, hmodify⟩ := modify_split there f
  rw [hops] at h
  rw [hmodify]
  simp only [List.forall_mem_append, List.forall_mem_cons] at h ⊢
  exact ⟨h.1, hf h.2.1, h.2.2⟩

/-! ### A decision -/

theorem decide_events (b : Books) (hsource : record.id.source = RequestIds.service.source)
    (outcome : Except Fault Result) :
    (b.decide record outcome).events = b.events ++ [record.event outcome (b.now - record.startedAt)] := by
  have hof : (record.event outcome (b.now - record.startedAt)).ofService = true := by
    rw [BusEvent.ofService, RequestRecord.event_id?, Option.any_some, hsource]
    exact beq_self_eq_true _
  cases outcome <;> exact congrArg (b.events ++ ·) (List.filter_cons_of_pos hof)

@[simp] theorem decide_operations (b : Books) (record : RequestRecord) (outcome : Except Fault Result) :
    (b.decide record outcome).operations = b.operations := by cases outcome <;> rfl

@[simp] theorem decide_requests (b : Books) (record : RequestRecord) (outcome : Except Fault Result) :
    (b.decide record outcome).requests = b.requests := by cases outcome <;> rfl

@[simp] theorem decide_ids (b : Books) (record : RequestRecord) (outcome : Except Fault Result) :
    (b.decide record outcome).ids = b.ids := by cases outcome <;> rfl

@[simp] theorem decide_assistantIds (b : Books) (record : RequestRecord) (outcome : Except Fault Result) :
    (b.decide record outcome).assistantIds = b.assistantIds := by cases outcome <;> rfl

/-- One more outcome is counted, of whichever kind. -/
theorem decide_outcomes (b : Books) (record : RequestRecord) (outcome : Except Fault Result) :
    (b.decide record outcome).errors + (b.decide record outcome).successes = b.errors + b.successes + 1 := by
  cases outcome with
  | ok r => rfl
  | error f => exact Nat.add_right_comm b.errors 1 b.successes

theorem total_concat (ticks : List Nat) (n : Nat) : total (ticks ++ [n]) = total ticks + n := by
  induction ticks with
  | nil => simp [total]
  | cons t ticks ih =>
    have h : total (t :: ticks ++ [n]) = t + total (ticks ++ [n]) := rfl
    rw [h, ih, ← Nat.add_assoc]
    rfl

/-! ### The requests that have been made -/

theorem mem_made (there : b.operations[op]? = some o) (hr : o.request = some record) : record ∈ b.made :=
  List.mem_filterMap.mpr ⟨o, List.mem_of_getElem? there, hr⟩

theorem made_enter (hr : o.request = none) (assistantIds : RequestIds) : (b.enter o assistantIds).made = b.made := by
  show (b.operations ++ [o]).filterMap (·.request) = b.made
  rw [List.filterMap_append, List.filterMap_cons_none hr, List.filterMap_nil, List.append_nil]
  rfl

theorem made_setStage (there : b.operations[op]? = some o) (stage : Stage) : (b.setStage op stage).made = b.made := by
  obtain ⟨before, later, hops, hmodify⟩ := modify_split there fun o => { o with stage }
  unfold made setStage
  rw [hmodify, hops]
  simp only [List.filterMap_append, List.filterMap_cons]

theorem made_ask (there : b.operations[op]? = some o) (hr : o.request = none) (record : RequestRecord) :
    (b.ask op record).made.Perm (record :: b.made) := by
  obtain ⟨before, later, hops, hmodify⟩ := modify_split there fun o => { o with request := some record }
  show ((b.modify op _).operations.filterMap (·.request)).Perm (record :: b.operations.filterMap (·.request))
  rw [hmodify, hops]
  simp only [List.filterMap_append, List.filterMap_cons, hr]
  exact List.perm_middle

@[simp] theorem made_decide (b : Books) (record : RequestRecord) (outcome : Except Fault Result) :
    (b.decide record outcome).made = b.made := by rw [made, decide_operations]; rfl

/-! ### What keeps them -/

theorem Kept.enter (h : b.Kept) {assistantIds : RequestIds} (hr : o.request = none) (ha : World.Foreign o.assistant)
    (hsource : assistantIds.source = b.assistantIds.source) : (b.enter o assistantIds).Kept where
  source := h.source
  assistantSource := hsource.trans h.assistantSource
  foreign := List.forall_mem_append.mpr ⟨h.foreign, by simpa using ha⟩
  issued := by rw [made_enter hr]; exact h.issued
  distinct := by rw [made_enter hr]; exact h.distinct
  known := by rw [made_enter hr]; exact h.known
  errors := h.errors
  successes := h.successes
  busy := h.busy

theorem Kept.setStage (h : b.Kept) (there : b.operations[op]? = some o) (stage : Stage) :
    (b.setStage op stage).Kept where
  source := h.source
  assistantSource := h.assistantSource
  foreign := foreign_modify there h.foreign fun ha => ha
  issued := by rw [made_setStage there]; exact h.issued
  distinct := by rw [made_setStage there]; exact h.distinct
  known := by rw [made_setStage there]; exact h.known
  errors := h.errors
  successes := h.successes
  busy := h.busy

theorem Kept.ask (h : b.Kept) (there : b.operations[op]? = some o) (hr : o.request = none) (hfresh : b.Fresh x record) :
    (b.ask op record).Kept := by
  have hmade := made_ask there hr record
  -- the id is new, since every id that was given before has a smaller count
  have hnew : record.id ∉ b.made.map (·.id) := by
    intro hmem
    obtain ⟨r, hr, hid⟩ := List.mem_map.mp hmem
    have hlt := (h.issued r hr).2
    rw [hid, hfresh.count] at hlt
    exact Nat.lt_irrefl _ hlt
  refine ⟨h.source, h.assistantSource, foreign_modify there h.foreign fun ha => ha, ?_, ?_, ?_, h.errors, h.successes,
    h.busy⟩
  · intro r hr
    show r.id.source = RequestIds.service.source ∧ r.id.count < b.ids.issued + 1
    rcases List.mem_cons.mp (hmade.mem_iff.mp hr) with rfl | hr
    · exact ⟨hfresh.source.trans h.source, by rw [hfresh.count]; exact Nat.lt_succ_self _⟩
    · exact ⟨(h.issued r hr).1, Nat.lt_succ_of_lt (h.issued r hr).2⟩
  · exact (hmade.map (·.id)).nodup_iff.mpr (List.nodup_cons.mpr ⟨hnew, h.distinct⟩)
  · intro e he
    obtain ⟨r, hr, hid⟩ := h.known e he
    exact ⟨r, hmade.mem_iff.mpr (List.mem_cons_of_mem _ hr), hid⟩

theorem Kept.decide (h : b.Kept) (hr : record ∈ b.made) (outcome : Except Fault Result) :
    (b.decide record outcome).Kept := by
  have hevents := b.decide_events (h.issued record hr).1 outcome
  refine ⟨?_, ?_, ?_, ?_, ?_, ?_, ?_, ?_, ?_⟩
  · rw [decide_ids]; exact h.source
  · rw [decide_assistantIds]; exact h.assistantSource
  · rw [decide_operations]; exact h.foreign
  · rw [made_decide, decide_ids]; exact h.issued
  · rw [made_decide]; exact h.distinct
  · rw [hevents, made_decide]
    refine List.forall_mem_append.mpr ⟨h.known, fun e he => ?_⟩
    rw [List.mem_singleton.mp he]
    exact ⟨record, hr, RequestRecord.event_id? _ _ _⟩
  · rw [hevents, List.countP_append, ← h.errors]
    cases outcome <;> rfl
  · rw [hevents, durations, List.filterMap_append, List.length_append]
    show _ = (durations b.events).length + _
    rw [← h.successes]
    cases outcome <;> rfl
  · rw [hevents, durations, List.filterMap_append]
    show _ = total (durations b.events ++ _)
    cases outcome with
    | ok r =>
      show b.busy + _ = total (durations b.events ++ [_])
      rw [total_concat, ← h.busy]
    | error f =>
      show b.busy = total (durations b.events ++ [])
      rw [List.append_nil, h.busy]

/-! ### What keeps the balance -/

theorem undecided_of_none (hr : o.request = none) : o.undecided = false := by rw [Operation.undecided, hr]; rfl

/-- Nothing is awaited any more of an operation whose outcome stands. -/
theorem not_undecided {assistant : Option AssistantRecord} (h : World.Concluding assistant outcome o.stage) :
    o.undecided = false := by
  unfold Operation.undecided
  obtain ⟨telling, queue, hstage⟩ | ⟨tick, hstage⟩ := h <;> rw [hstage] <;> exact Bool.and_false _

theorem not_resolving {assistant : Option AssistantRecord} (h : World.Concluding assistant outcome stage)
    {context : Context} {ask : Ask} {task : Nat} : stage ≠ .resolving context ask task := by
  obtain ⟨telling, queue, rfl⟩ | ⟨tick, rfl⟩ := h <;> exact fun h => nomatch h

theorem Balanced.enter (h : b.Balanced) {assistantIds : RequestIds} (hr : o.request = none)
    (ha : World.Foreign o.assistant) (hsource : assistantIds.source = b.assistantIds.source) :
    (b.enter o assistantIds).Balanced where
  toKept := h.toKept.enter hr ha hsource
  resolving := List.forall_mem_append.mpr ⟨h.resolving, by simp [hr]⟩
  requests := by
    show b.requests = b.errors + b.successes + (b.operations ++ [o]).countP (·.undecided)
    rw [List.countP_append, List.countP_singleton, undecided_of_none hr]
    exact h.requests

/-- The balance is kept if what it changes by for one operation evens out. -/
theorem Balanced.of_modify (h : b.Balanced) (hkept : b'.Kept) (there : b.operations[op]? = some o)
    {f : Operation → Operation} (hops : b'.operations = (b.modify op f).operations)
    (hresolving : ∀ context ask task, (f o).stage = .resolving context ask task → (f o).request = none)
    (heven : b'.requests + (b.errors + b.successes) + (if o.undecided then 1 else 0) =
      b.requests + (b'.errors + b'.successes) + if (f o).undecided then 1 else 0) : b'.Balanced := by
  obtain ⟨before, later, hsplit, hmodify⟩ := modify_split there f
  have hold := h.requests
  have hstages := h.resolving
  rw [hsplit] at hold hstages
  rw [hmodify] at hops
  refine ⟨hkept, ?_, ?_⟩
  · rw [hops]
    simp only [List.forall_mem_append, List.forall_mem_cons] at hstages ⊢
    exact ⟨hstages.1, hresolving, hstages.2.2⟩
  · rw [hops]
    simp only [List.countP_append, List.countP_cons] at hold ⊢
    omega

/-- **Every posting** keeps the balance. -/
theorem Posting.balanced (hp : Posting x b b') (h : b.Balanced) : b'.Balanced := by
  cases hp with
  | idle now =>
    exact ⟨⟨h.source, h.assistantSource, h.foreign, h.issued, h.distinct, h.known, h.errors, h.successes, h.busy⟩,
      h.resolving, h.requests⟩
  | @plain op o stage there hr =>
    have hnew : Operation.undecided { o with stage } = false := undecided_of_none hr
    refine h.of_modify (h.toKept.setStage there stage) there rfl (fun _ _ _ _ => hr) ?_
    rw [undecided_of_none hr, hnew]
    rfl
  | launch there hr fresh =>
    have hkept := h.toKept.ask there hr fresh
    refine h.of_modify (hkept.setStage (modify_self there _) _) there (List.modify_modify_eq _ _ _ _)
      (fun _ _ _ h => nomatch h) ?_
    rw [undecided_of_none hr]
    exact Nat.add_right_comm b.requests 1 _
  | @refuse op o record f stage there hr fresh hconcluding =>
    have hkept := h.toKept.ask there hr fresh
    have hthere := modify_self there fun o => { o with request := some record }
    have hdecided := hkept.decide (mem_made hthere rfl) (.error f)
    have hnew : Operation.undecided { o with request := some record, stage } = false := not_undecided hconcluding
    refine h.of_modify (hdecided.setStage hthere stage) there (List.modify_modify_eq _ _ _ _)
      (fun _ _ _ h => absurd h (not_resolving hconcluding)) ?_
    show b.requests + 1 + (b.errors + b.successes) + (if o.undecided then 1 else 0) =
      b.requests + (b.errors + 1 + b.successes) +
        if Operation.undecided { o with request := some record, stage } then 1 else 0
    rw [undecided_of_none hr, hnew]
    omega
  | @decide op o record flight outcome stage there hr flying hconcluding =>
    have hold : o.undecided = true := by rw [Operation.undecided, hr, flying]; rfl
    have hnew : Operation.undecided { o with stage } = false := not_undecided hconcluding
    have houtcomes := b.decide_outcomes record outcome
    have hdecided := h.toKept.decide (mem_made there hr) outcome
    have hthere : (b.decide record outcome).operations[op]? = some o := by rw [decide_operations]; exact there
    refine h.of_modify (f := fun o => { o with stage }) (hdecided.setStage hthere stage) there ?_
      (fun _ _ _ h => absurd h (not_resolving hconcluding)) ?_
    · show (b.decide record outcome).operations.modify op _ = b.operations.modify op _
      rw [decide_operations]
    · show (b.decide record outcome).requests + (b.errors + b.successes) + (if o.undecided then 1 else 0) =
        b.requests + ((b.decide record outcome).errors + (b.decide record outcome).successes) +
          if Operation.undecided { o with stage } then 1 else 0
      rw [hold, hnew, decide_requests, houtcomes]
      rfl
  | @relay op o record telling queue outcome stage there hr relaying hconcluding =>
    have hstands : World.Concluding o.assistant outcome o.stage := .inl ⟨telling, queue, relaying⟩
    have hold : o.undecided = false := not_undecided hstands
    have hnew : Operation.undecided { o with stage } = false := not_undecided hconcluding
    refine h.of_modify (h.toKept.setStage there stage) there rfl
      (fun _ _ _ h => absurd h (not_resolving hconcluding)) ?_
    rw [hold, hnew]
    rfl
  | @drop op o record telling queue outcome tick _ there hr relaying =>
    have hstands : World.Concluding o.assistant outcome o.stage := .inl ⟨telling, queue, relaying⟩
    have hold : o.undecided = false := not_undecided hstands
    have hnew : Operation.undecided { o with stage := .done (.error .interrupted) tick } = false := Bool.and_false _
    refine h.of_modify (h.toKept.setStage there _) there rfl (fun _ _ _ h => nomatch h) ?_
    rw [hold, hnew]
    rfl

end Books

namespace World

open Books

variable {w : World}

/-- Whatever occurs keeps the balance. -/
theorem occur_balanced (x : Occurrence) (h : w.books.Balanced) : (w.occur x).books.Balanced := by
  obtain ⟨b, hentered, hposting⟩ := occur_posts x h.assistantSource h.foreign h.resolving
  have hb : b.Balanced := by
    cases hentered with
    | same => exact h
    | enter o ids hr ha hsource => exact h.enter hr ha hsource
  exact hposting.balanced hb

/-- So the books balance after every run. -/
theorem after_balanced (occs : List Occurrence) (h : w.books.Balanced) : (w.after occs).books.Balanced := by
  induction occs generalizing w with
  | nil => exact h
  | cons x occs ih => exact ih (occur_balanced x h)

end World

end Orchestra
