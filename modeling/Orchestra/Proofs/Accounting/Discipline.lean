import Orchestra.Proofs.Accounting.Fate
import Orchestra.Proofs.Runs.Frame

/-!
# Orchestra.Proofs.Accounting.Discipline — one event for every request, at every point of a run

A run tells when a request was made, when it was decided, and whether its caller went away in between being decided and
being answered.  Whatever the order of things, a request has no event until it is decided and exactly one from then on,
which says what was decided, in the name of the request, and how long it took (`after_accounted`).  What was decided is
handed to the caller, unless it is a success that is to be displayed and cannot be (`Hands`).
-/

namespace Orchestra

namespace World

open Books

/-! ### What happened in a run -/

/-- At some point of the run something occurred between two worlds of this kind. -/
def Happens (w : World) (occs : List Occurrence) (P : World → Occurrence → World → Prop) : Prop :=
  ∃ before x later, occs = before ++ x :: later ∧ P (w.after before) x ((w.after before).occur x)

/-- The request that an operation has made, if it is there and has made one. -/
def request? (w : World) (op : Nat) : Option RequestRecord := (w.operations[op]?).bind (·.request)

/-- The request of the operation has been made and decided. -/
def Decided (w : World) (op : Nat) : Prop :=
  ∃ o, w.operations[op]? = some o ∧ o.request.isSome ∧ ∀ flight, o.stage ≠ .flying flight

/-- The operation made this request, asked for by what occurred, and the record says when. -/
def MadeIn (w : World) (occs : List Occurrence) (op : Nat) (r : RequestRecord) : Prop :=
  w.Happens occs fun w x v =>
    w.request? op = none ∧ v.request? op = some r ∧ w.now = r.startedAt ∧ x.Asks r.operation r.kind

/-- The request of the operation was decided at this tick. -/
def DecidedIn (w : World) (occs : List Occurrence) (op : Nat) (tick : Tick) : Prop :=
  w.Happens occs fun w _ v => ¬ w.Decided op ∧ v.Decided op ∧ w.now = tick

/-- The task of the operation was cancelled after the decision, before its caller had the outcome. -/
def AbandonedIn (w : World) (occs : List Occurrence) (op : Nat) : Prop :=
  w.Happens occs fun w x _ => x = .abort op ∧ w.Decided op ∧ w.outcome? op = none

/-! ### The account of a request -/

/-- The events that answer the request of that id. -/
def eventsOf (w : World) (id : RequestId) : List BusEvent := w.published.filter (·.id? == some id)

/-- After this run, the request of the operation has been decided in this way, and one event says so. -/
def AnsweredIn (w : World) (occs : List Occurrence) (op : Nat) (r : RequestRecord) (outcome : Except Fault Result) :
    Prop :=
  ∃ tick, w.DecidedIn occs op tick ∧ (w.after occs).eventsOf r.id = [r.event outcome (tick - r.startedAt)]

/-- What is handed to the caller of a request that was decided in some way: just that, unless results are shown for
debugging and this one cannot be displayed. -/
inductive Hands (w : World) : Except Fault Result → Except Fault Result → Prop
  | refused {f : Fault} : w.Hands (.error f) (.error f)
  | plain {r : Result} (silent : w.service.config.debug = false) : w.Hands (.ok r) (.ok r)
  | shown {r : Result} {v : Value} (debug : w.service.config.debug = true)
      (display : w.display w.service.config.abridgeTo r = .ok v) : w.Hands (.ok r) (.ok r)
  | unshown {r : Result} {complaint : Complaint} (debug : w.service.config.debug = true)
      (display : w.display w.service.config.abridgeTo r = .error complaint) : w.Hands (.ok r) (.error complaint.fault)

/-- What holds of a request after a run, by how far its operation has come.  The caller gets what is handed over of what the
event says, unless the task was cancelled in between. -/
def AccountedIn (w : World) (occs : List Occurrence) (op : Nat) (o : Operation) (r : RequestRecord) : Prop :=
  match o.stage with
  | .resolving _ _ _ => False
  | .flying _ => (w.after occs).eventsOf r.id = []
  | .relaying _ _ standing => ∃ outcome, w.AnsweredIn occs op r outcome ∧ w.Hands outcome standing
  | .done answer _ => ∃ outcome standing, w.AnsweredIn occs op r outcome ∧ w.Hands outcome standing ∧
      (answer = answerTo o.assistant standing ∨ answer = .error .interrupted ∧ w.AbandonedIn occs op)

variable {w : World} {occs : List Occurrence} {x : Occurrence} {op : Nat} {o : Operation} {r : RequestRecord}
  {outcome standing : Except Fault Result}

theorem hands_iff : w.Hands outcome standing ↔ standing = outcome.bind w.handed := by
  constructor
  · intro h
    cases h with
    | refused => rfl
    | plain silent => simp [Except.bind, handed, displayed?, silent]
    | shown debug display => simp [Except.bind, handed, displayed?, debug, display]
    | unshown debug display => simp [Except.bind, handed, displayed?, debug, display]
  · rintro rfl
    cases outcome with
    | error f => exact .refused
    | ok r =>
      show w.Hands (.ok r) (w.handed r)
      unfold handed displayed?
      cases hdebug : w.service.config.debug with
      | false => exact .plain hdebug
      | true =>
        cases hdisplay : w.display w.service.config.abridgeTo r with
        | ok v => exact .shown hdebug hdisplay
        | error complaint => exact .unshown hdebug hdisplay

theorem Happens.later {P : World → Occurrence → World → Prop} (h : w.Happens occs P) (x : Occurrence) :
    w.Happens (occs ++ [x]) P := by
  obtain ⟨before, y, later, rfl, hP⟩ := h
  exact ⟨before, y, later ++ [x], by rw [List.append_assoc, List.cons_append], hP⟩

theorem happens_last {P : World → Occurrence → World → Prop} (h : P (w.after occs) x ((w.after occs).occur x)) :
    w.Happens (occs ++ [x]) P := ⟨occs, x, [], rfl, h⟩

/-- The events of a request to the service are in the books. -/
theorem eventsOf_books (w : World) {id : RequestId} (hsource : id.source = RequestIds.service.source) :
    w.books.eventsOf id = w.eventsOf id := by
  show (w.published.filter (·.ofService)).filter (·.id? == some id) = w.published.filter (·.id? == some id)
  rw [List.filter_filter]
  refine List.filter_congr fun e _ => ?_
  cases heq : e.id? == some id with
  | false => rfl
  | true =>
    rw [Bool.true_and, BusEvent.ofService, beq_iff_eq.mp heq, Option.any_some, hsource]
    exact beq_self_eq_true _

theorem AnsweredIn.later (h : w.AnsweredIn occs op r outcome)
    (hevents : (w.after (occs ++ [x])).eventsOf r.id = (w.after occs).eventsOf r.id) :
    w.AnsweredIn (occs ++ [x]) op r outcome := by
  obtain ⟨tick, hdecided, hone⟩ := h
  exact ⟨tick, hdecided.later x, hevents.trans hone⟩

theorem accountedIn_flying {flight : Flight} (hstage : o.stage = .flying flight) :
    w.AccountedIn occs op o r ↔ (w.after occs).eventsOf r.id = [] := by
  unfold AccountedIn
  rw [hstage]

theorem accountedIn_relaying {telling : Nat} {queue : List Hook}
    (hstage : o.stage = .relaying telling queue standing) :
    w.AccountedIn occs op o r ↔ ∃ outcome, w.AnsweredIn occs op r outcome ∧ w.Hands outcome standing := by
  unfold AccountedIn
  rw [hstage]

/-- What is handed to the caller accounts for a request that has been answered with it. -/
theorem accounted_of_concluding (h : w.AnsweredIn occs op r outcome) (hhands : w.Hands outcome standing)
    (hstage : Concluding o.assistant standing o.stage) : w.AccountedIn occs op o r := by
  unfold AccountedIn
  obtain ⟨telling, queue, hstage⟩ | ⟨tick, hstage⟩ := hstage
  · rw [hstage]
    exact ⟨outcome, h, hhands⟩
  · rw [hstage]
    exact ⟨outcome, standing, h, hhands, .inl rfl⟩

theorem decided_of_concluding (ho : w.operations[op]? = some o) (hr : o.request = some r)
    (hstage : Concluding o.assistant outcome o.stage) : w.Decided op := by
  refine ⟨o, ho, by rw [hr]; rfl, fun flight hflying => ?_⟩
  obtain ⟨telling, queue, hstage⟩ | ⟨tick, hstage⟩ := hstage
  · cases hstage.symm.trans hflying
  · cases hstage.symm.trans hflying

theorem AccountedIn.later (h : w.AccountedIn occs op o r)
    (hevents : (w.after (occs ++ [x])).eventsOf r.id = (w.after occs).eventsOf r.id) :
    w.AccountedIn (occs ++ [x]) op o r := by
  unfold AccountedIn at h ⊢
  split at h
  · exact h
  · exact hevents.trans h
  · obtain ⟨outcome, hanswered, hhands⟩ := h
    exact ⟨outcome, hanswered.later hevents, hhands⟩
  · obtain ⟨outcome, standing, hanswered, hhands, hanswer⟩ := h
    refine ⟨outcome, standing, hanswered.later hevents, hhands, ?_⟩
    obtain heq | ⟨hlost, habandoned⟩ := hanswer
    · exact .inl heq
    · exact .inr ⟨hlost, Happens.later habandoned x⟩

/-! ### Every run keeps the accounts -/

/-- Every request has been made in the run, and has its account after it. -/
def Accounted (w : World) (occs : List Occurrence) : Prop :=
  ∀ op o r, (w.after occs).operations[op]? = some o → o.request = some r →
    w.MadeIn occs op r ∧ w.AccountedIn occs op o r

theorem not_decided_of_unasked (h : w.request? op = none) : ¬ w.Decided op := by
  rintro ⟨o, ho, hr, -⟩
  rw [request?, ho, Option.bind_some] at h
  rw [h] at hr
  cases hr

/-- **A decision** that is made now: a request without events gets the one event that tells of it. -/
theorem accounted_of_decision (ho : ((w.after occs).occur x).operations[op]? = some o) (hr : o.request = some r)
    (hundecided : ¬ (w.after occs).Decided op) (hhands : w.Hands outcome standing)
    (hconcluding : Concluding o.assistant standing o.stage) (hnone : (w.after occs).eventsOf r.id = [])
    (hevents : (w.after (occs ++ [x])).eventsOf r.id =
      (w.after occs).eventsOf r.id ++ [r.event outcome ((w.after occs).now - r.startedAt)]) :
    w.AccountedIn (occs ++ [x]) op o r := by
  have hdecided := decided_of_concluding ho hr hconcluding
  refine accounted_of_concluding ⟨(w.after occs).now, happens_last ⟨hundecided, hdecided, rfl⟩, ?_⟩ hhands hconcluding
  rw [hevents, hnone, List.nil_append]

/-- **One step** of a run: whatever occurs, every request has its account afterwards. -/
theorem Accounted.step (h : w.Accounted occs) (hw : w.books.Balanced) (x : Occurrence) : w.Accounted (occs ++ [x]) := by
  intro op o r ho hr
  have hbalanced := after_balanced occs hw
  rw [after_concat] at ho
  have hsource := ((occur_balanced x hbalanced).issued r (mem_made ho hr)).1
  have hbefore := eventsOf_books (w.after occs) hsource
  have hafter : ((w.after occs).occur x).books.eventsOf r.id = (w.after (occs ++ [x])).eventsOf r.id := by
    rw [after_concat]
    exact eventsOf_books _ hsource
  have hasked : ((w.after occs).occur x).request? op = some r := by rw [request?, ho, Option.bind_some, hr]
  cases occur_fate hbalanced ho hr with
  | untouched there events =>
    rw [hbefore, hafter] at events
    obtain ⟨hmade, haccount⟩ := h op o r there hr
    exact ⟨Happens.later hmade x, haccount.later events⟩
  | launched unasked fresh flying events =>
    have hnone := hbalanced.eventsOf_fresh fresh
    rw [hbefore, hafter] at events
    rw [hbefore] at hnone
    refine ⟨happens_last ⟨unasked, hasked, fresh.startedAt.symm, fresh.asks⟩, ?_⟩
    exact (accountedIn_flying flying).mpr (events.trans hnone)
  | refused unasked fresh concluding events =>
    have hnone := hbalanced.eventsOf_fresh fresh
    rw [hbefore, hafter] at events
    rw [hbefore] at hnone
    refine ⟨happens_last ⟨unasked, hasked, fresh.startedAt.symm, fresh.asks⟩, ?_⟩
    exact accounted_of_decision ho hr (not_decided_of_unasked unasked) .refused concluding hnone events
  | @decided old flight outcome there request flying concluding events =>
    obtain ⟨hmade, haccount⟩ := h op old r there request
    have hundecided : ¬ (w.after occs).Decided op := by
      rintro ⟨o', ho', -, hflying⟩
      cases there.symm.trans ho'
      exact hflying flight flying
    have hhands : w.Hands outcome (outcome.bind (w.after occs).handed) :=
      hands_iff.mpr (congrArg _ (w.after_handed occs))
    rw [hbefore, hafter] at events
    refine ⟨Happens.later hmade x, ?_⟩
    exact accounted_of_decision ho hr hundecided hhands concluding ((accountedIn_flying flying).mp haccount) events
  | @relayed old telling queue standing there request relaying concluding events =>
    obtain ⟨hmade, haccount⟩ := h op old r there request
    obtain ⟨outcome, hanswered, hhands⟩ := (accountedIn_relaying relaying).mp haccount
    rw [hbefore, hafter] at events
    exact ⟨Happens.later hmade x, accounted_of_concluding (hanswered.later events) hhands concluding⟩
  | @dropped old telling queue standing tick abort there request relaying done events =>
    obtain ⟨hmade, haccount⟩ := h op old r there request
    obtain ⟨outcome, hanswered, hhands⟩ := (accountedIn_relaying relaying).mp haccount
    have hdecided : (w.after occs).Decided op :=
      ⟨old, there, by rw [request]; rfl, fun _ h => nomatch relaying.symm.trans h⟩
    have hwaiting : (w.after occs).outcome? op = none := by
      show ((w.after occs).books.operations[op]?).bind (·.outcome?) = none
      rw [there, Option.bind_some, Operation.outcome?, relaying]
    rw [hbefore, hafter] at events
    refine ⟨Happens.later hmade x, ?_⟩
    unfold AccountedIn
    rw [done]
    exact ⟨outcome, standing, hanswered.later events, hhands, .inr ⟨rfl, happens_last ⟨abort, hdecided, hwaiting⟩⟩⟩

/-- **A whole run** keeps the accounts, from where it begins. -/
theorem after_accounted (hbalanced : w.books.Balanced) (h : w.Accounted occs) (more : List Occurrence) :
    w.Accounted (occs ++ more) := by
  induction more generalizing occs with
  | nil => rw [List.append_nil]; exact h
  | cons x more ih =>
    rw [List.append_cons]
    exact ih (h.step hbalanced x)

end World

end Orchestra
