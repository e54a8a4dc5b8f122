import Orchestra.Proofs.Accounting.Balance

/-!
# Orchestra.Proofs.Accounting.Fate — what becomes of one request

Seen from one request, an occurrence makes it, decides it, passes its outcome on, loses it, or does not touch it: then
neither its operation nor the events under its id change (`Posting.fate`).
-/

namespace Orchestra

namespace Books

/-- The events that answer the request of that id. -/
def eventsOf (b : Books) (id : RequestId) : List BusEvent := b.events.filter (·.id? == some id)

/-- The request that an operation has made, if it is there and has made one. -/
def request? (b : Books) (op : Nat) : Option RequestRecord := (b.operations[op]?).bind (·.request)

/-- What an occurrence is for one request: `o` is its operation afterwards. -/
inductive Fate (x : Occurrence) (b b' : Books) (op : Nat) (o : Operation) (r : RequestRecord) : Prop
  | untouched (there : b.operations[op]? = some o) (events : b'.eventsOf r.id = b.eventsOf r.id)
  | launched {flight : Flight} (unasked : b.request? op = none) (fresh : b.Fresh x r)
      (flying : o.stage = .flying flight) (events : b'.eventsOf r.id = b.eventsOf r.id)
  | refused {f : Fault} (unasked : b.request? op = none) (fresh : b.Fresh x r)
      (concluding : World.Concluding o.assistant (.error f) o.stage)
      (events : b'.eventsOf r.id = b.eventsOf r.id ++ [r.event (.error f) (b.now - r.startedAt)])
  | decided {old : Operation} {flight : Flight} {outcome : Except Fault Result} (there : b.operations[op]? = some old)
      (request : old.request = some r) (flying : old.stage = .flying flight)
      (concluding : World.Concluding o.assistant (outcome.bind b.handed) o.stage)
      (events : b'.eventsOf r.id = b.eventsOf r.id ++ [r.event outcome (b.now - r.startedAt)])
  | relayed {old : Operation} {telling : Nat} {queue : List Hook} {outcome : Except Fault Result}
      (there : b.operations[op]? = some old) (request : old.request = some r)
      (relaying : old.stage = .relaying telling queue outcome)
      (concluding : World.Concluding o.assistant outcome o.stage) (events : b'.eventsOf r.id = b.eventsOf r.id)
  | dropped {old : Operation} {telling : Nat} {queue : List Hook} {outcome : Except Fault Result} {tick : Tick}
      (abort : x = .abort op) (there : b.operations[op]? = some old) (request : old.request = some r)
      (relaying : old.stage = .relaying telling queue outcome) (done : o.stage = .done (.error .interrupted) tick)
      (events : b'.eventsOf r.id = b.eventsOf r.id)

variable {b b' : Books} {x : Occurrence} {op op' : Nat} {o o' : Operation} {record r r' : RequestRecord}
  {outcome : Except Fault Result}

/-! ### Requests and their ids -/

/-- **No two operations** have requests of one id. -/
theorem Kept.op_of_id (h : b.Kept) (ho : b.operations[op]? = some o) (hr : o.request = some r)
    (ho' : b.operations[op']? = some o') (hr' : o'.request = some r') (hid : r.id = r'.id) : op = op' := by
  have hpairs : b.operations.Pairwise fun o o' =>
      ∀ r, o.request = some r → ∀ r', o'.request = some r' → r.id ≠ r'.id := by
    have hdistinct := h.distinct
    rw [made, List.Nodup, List.pairwise_map, List.pairwise_filterMap] at hdistinct
    exact hdistinct
  rw [List.pairwise_iff_getElem] at hpairs
  obtain ⟨hlt, rfl⟩ := List.getElem?_eq_some_iff.mp ho
  obtain ⟨hlt', rfl⟩ := List.getElem?_eq_some_iff.mp ho'
  rcases Nat.lt_trichotomy op op' with hop | hop | hop
  · exact absurd hid (hpairs op op' hlt hlt' hop r hr r' hr')
  · exact hop
  · exact absurd hid.symm (hpairs op' op hlt' hlt hop r' hr' r hr)

theorem request?_none (there : b.operations[op]? = some o) (hr : o.request = none) : b.request? op = none := by
  rw [request?, there, Option.bind_some, hr]

/-- An operation that has just begun has made no request; the others were there before. -/
theorem Entered.there (h : b.Entered b') (ho : b'.operations[op]? = some o) :
    b.operations[op]? = some o ∨ b.operations[op]? = none ∧ o.request = none := by
  cases h with
  | same => exact .inl ho
  | enter new ids hr ha hsource =>
    have ho : (b.operations ++ [new])[op]? = some o := ho
    rcases Nat.lt_or_ge op b.operations.length with hop | hop
    · rw [List.getElem?_append_left hop] at ho
      exact .inl ho
    · rw [List.getElem?_append_right hop] at ho
      have hnew : o = new := List.mem_singleton.mp (List.mem_of_getElem? ho)
      exact .inr ⟨List.getElem?_eq_none hop, hnew ▸ hr⟩

theorem Entered.there_of_request (h : b.Entered b') (ho : b'.operations[op]? = some o) (hr : o.request = some r) :
    b.operations[op]? = some o := by
  obtain ho | ⟨-, hnone⟩ := h.there ho
  · exact ho
  · cases hr.symm.trans hnone

theorem Entered.unasked (h : b.Entered b') (hnone : b'.request? op = none) : b.request? op = none := by
  cases h with
  | same => exact hnone
  | enter new ids hr ha hsource =>
    cases ho : b.operations[op]? with
    | none => rw [request?, ho, Option.bind_none]
    | some o =>
      have hsame : (b.enter new ids).operations[op]? = b.operations[op]? :=
        List.getElem?_append_left (List.getElem?_eq_some_iff.mp ho).1
      rw [request?, hsame] at hnone
      exact hnone

/-- An id that is still to be given answers nothing yet. -/
theorem Kept.eventsOf_fresh (h : b.Kept) (hfresh : b.Fresh x r) : b.eventsOf r.id = [] := by
  refine List.filter_eq_nil_iff.mpr fun e he heq => ?_
  obtain ⟨r', hr', hid⟩ := h.known e he
  have hsame : r'.id = r.id := Option.some.inj (hid.symm.trans (beq_iff_eq.mp heq))
  have hlt := (h.issued r' hr').2
  rw [hsame, hfresh.count] at hlt
  exact Nat.lt_irrefl _ hlt

theorem eventsOf_decide (hsource : record.id.source = RequestIds.service.source) (id : RequestId) :
    (b.decide record outcome).eventsOf id =
      b.eventsOf id ++ if record.id = id then [record.event outcome (b.now - record.startedAt)] else [] := by
  rw [eventsOf, decide_events b hsource, List.filter_append]
  congr 1
  split
  · next hid => exact List.filter_cons_of_pos (by rw [RequestRecord.event_id?, hid]; exact beq_self_eq_true _)
  · next hid =>
    refine List.filter_cons_of_neg ?_
    rw [RequestRecord.event_id?]
    exact fun heq => hid (Option.some.inj (beq_iff_eq.mp heq))

theorem eventsOf_decide_self (hsource : record.id.source = RequestIds.service.source) :
    (b.decide record outcome).eventsOf record.id =
      b.eventsOf record.id ++ [record.event outcome (b.now - record.startedAt)] := by
  rw [eventsOf_decide hsource, if_pos rfl]

theorem eventsOf_decide_other (hsource : record.id.source = RequestIds.service.source) {id : RequestId}
    (hid : record.id ≠ id) : (b.decide record outcome).eventsOf id = b.eventsOf id := by
  rw [eventsOf_decide hsource, if_neg hid, List.append_nil]

/-! ### From postings to fates -/

/-- **A posting**, seen from a request that is there afterwards. -/
theorem Posting.fate (hp : Posting x b b') (hb : b'.Kept) (ho : b'.operations[op]? = some o) (hr : o.request = some r) :
    Fate x b b' op o r := by
  cases hp with
  | idle now => exact .untouched ho rfl
  | @plain op' old stage there request =>
    by_cases hop : op' = op
    · subst hop
      cases (modify_self there _).symm.trans ho
      exact absurd (request.symm.trans hr) nofun
    · exact .untouched ((modify_other hop _).symm.trans ho) rfl
  | @launch op' old record flight there request fresh =>
    by_cases hop : op' = op
    · subst hop
      cases (modify_self (modify_self there _) _).symm.trans ho
      cases hr
      exact .launched (request?_none there request) fresh rfl rfl
    · exact .untouched ((modify_other hop _).symm.trans ((modify_other hop _).symm.trans ho)) rfl
  | @refuse op' old record f stage there request fresh concluding =>
    have hthere : ((b.ask op' record).decide record (.error f)).operations[op']? =
        some { old with request := some record } := by
      rw [decide_operations]
      exact modify_self there _
    have hself := modify_self hthere fun o => { o with stage }
    have hsource := (hb.issued record (mem_made hself rfl)).1
    by_cases hop : op' = op
    · subst hop
      cases hself.symm.trans ho
      cases hr
      exact .refused (request?_none there request) fresh concluding (eventsOf_decide_self hsource)
    · have hid : record.id ≠ r.id := fun hid => hop (hb.op_of_id hself rfl ho hr hid)
      have hother := (modify_other hop _).symm.trans ho
      rw [decide_operations] at hother
      exact .untouched ((modify_other hop _).symm.trans hother) (eventsOf_decide_other hsource hid)
  | @decide op' old record flight outcome stage there request flying concluding =>
    have hthere : (b.decide record outcome).operations[op']? = some old := by
      rw [decide_operations]
      exact there
    have hself := modify_self hthere fun o => { o with stage }
    have hsource := (hb.issued record (mem_made hself request)).1
    by_cases hop : op' = op
    · subst hop
      cases hself.symm.trans ho
      cases request.symm.trans hr
      exact .decided there request flying concluding (eventsOf_decide_self hsource)
    · have hid : record.id ≠ r.id := fun hid => hop (hb.op_of_id hself request ho hr hid)
      have hother := (modify_other hop _).symm.trans ho
      rw [decide_operations] at hother
      exact .untouched hother (eventsOf_decide_other hsource hid)
  | @relay op' old record telling queue outcome stage there request relaying concluding =>
    by_cases hop : op' = op
    · subst hop
      cases (modify_self there _).symm.trans ho
      cases request.symm.trans hr
      exact .relayed there request relaying concluding rfl
    · exact .untouched ((modify_other hop _).symm.trans ho) rfl
  | @drop op' old record telling queue outcome tick abort there request relaying =>
    by_cases hop : op' = op
    · subst hop
      cases (modify_self there _).symm.trans ho
      cases request.symm.trans hr
      exact .dropped abort there request relaying rfl rfl
    · exact .untouched ((modify_other hop _).symm.trans ho) rfl

end Books

namespace World

open Books

variable {w : World} {x : Occurrence} {op : Nat} {o : Operation} {r : RequestRecord}

/-- **Whatever occurs**, seen from a request that is there afterwards. -/
theorem occur_fate (h : w.books.Balanced) (ho : (w.occur x).operations[op]? = some o) (hr : o.request = some r) :
    Fate x w.books (w.occur x).books op o r := by
  obtain ⟨b, hentered, hposting⟩ := occur_posts x h.assistantSource h.foreign h.resolving
  have hevents : ∀ id, b.eventsOf id = w.books.eventsOf id := by cases hentered <;> exact fun _ => rfl
  have hnow : b.now = w.books.now := by cases hentered <;> rfl
  have hids : b.ids = w.books.ids := by cases hentered <;> rfl
  have hhanded : b.handed = w.books.handed := by cases hentered <;> rfl
  have hold : ∀ {r}, b.Fresh x r → w.books.Fresh x r := fun fresh =>
    ⟨hids ▸ fresh.source, hids ▸ fresh.count, hnow ▸ fresh.startedAt, fresh.asks⟩
  cases hposting.fate (occur_balanced x h).toKept ho hr with
  | untouched there events => exact .untouched (hentered.there_of_request there hr) (events.trans (hevents _))
  | launched unasked fresh flying events =>
    exact .launched (hentered.unasked unasked) (hold fresh) flying (events.trans (hevents _))
  | refused unasked fresh concluding events =>
    exact .refused (hentered.unasked unasked) (hold fresh) concluding (by rw [events, hevents, hnow])
  | decided there request flying concluding events =>
    exact .decided (hentered.there_of_request there request) request flying (hhanded ▸ concluding)
      (by rw [events, hevents, hnow])
  | relayed there request relaying concluding events =>
    exact .relayed (hentered.there_of_request there request) request relaying concluding (events.trans (hevents _))
  | dropped abort there request relaying done events =>
    exact .dropped abort (hentered.there_of_request there request) request relaying done (events.trans (hevents _))

end World

end Orchestra
