import Orchestra.Proofs.Dispatch.Run

/-!
# Orchestra.Proofs.Dispatch.Cancellation — cancellation comes first

A fan-out is refused before any provider is called: for its kind, for want of providers, or because its token is
cancelled, in this order.  Otherwise a cancellation of the token up to the tick at which the calls decide it, that tick
included, ends it at once and as cancelled; a later one changes nothing (`run_cancellation`).  When the calls end is read
off the clockwork that is left when nothing is due any more (`Setting.aftermath`).
-/

namespace Orchestra

namespace Clockwork

variable {c : Clockwork}

/-- Only timers run, and nobody has been called since the journal was last taken. -/
structure Quiet (c : Clockwork) : Prop where
  tasks : ∀ t ∈ c.tasks, ∃ wake, t.state = .waiting wake [] .nothing
  calls : c.journal.filter Entry.isCall = []

theorem Quiet.step {c' : Clockwork} (h : c.Quiet) (hstep : c.step = some c') : c'.Quiet := by
  obtain ⟨t, ht, rfl⟩ := step_eq_some.mp hstep
  obtain ⟨wake, hstate⟩ := h.tasks t (List.mem_of_find?_eq_some ht)
  have hgo : c.goOn t = (c.without t).record t.id (.ok .nothing) := by rw [goOn, hstate]; rfl
  rw [hgo]
  exact ⟨fun t' ht' => h.tasks t' (List.mem_of_mem_filter ht'), h.calls⟩

end Clockwork

namespace World

variable {w : World}

/-- Who waits for an outcome that is there has it at once. -/
theorem waitFor_done {o : Operation} {outcome : Except Fault Answer} {tick : Tick} (h : w.Alone o)
    (hd : o.stage = .done outcome tick) :
    ∃ v, w.waitFor (fun w => (w.outcome? 0).isSome) = (v, true) ∧ v.now = w.now := by
  obtain ⟨clock, -, -, -, -, halone⟩ := settle_alone h
  rw [Operation.seen_done hd] at halone
  obtain ⟨n, hn⟩ := Nat.exists_eq_succ_of_ne_zero (Nat.ne_of_gt (Nat.lt_of_le_of_lt (Nat.zero_le _)
    (pending_lt_patience w)))
  refine ⟨w.settle, ?_, (within_settle_alone h).now⟩
  rw [waitFor, hn, passTime_succ, if_pos]
  rw [halone.outcome?, Operation.outcome?, hd]
  rfl

theorem passTime_quiet {o : Operation} {outcome : Except Fault Answer} {tick : Tick} (h : w.Alone o)
    (hd : o.stage = .done outcome tick) (hq : w.clock.Quiet) (condition : World → Bool) (n : Nat) :
    (w.passTime condition n).1.clock.Quiet := by
  have hseen := Operation.seen_done hd
  refine (passTime_induction (P := fun v => v.Alone o ∧ v.clock.Quiet)
    (Q := fun v => (v.Alone o ∧ v.Settled) ∧ v.clock.Quiet) (fun v ⟨hv, hq⟩ => ?_)
    (fun v t ⟨⟨hv, hs⟩, hq⟩ hnext => ⟨hv.at_ (Nat.le_of_lt (lt_nextDue hv hs hnext)), hq.tasks, hq.calls⟩)
    (fun v hv => ⟨hv.1.1, hv.2⟩) condition n ⟨h, hq⟩).2
  obtain ⟨clock, touched, -, hclock, -, halone⟩ := settle_alone hv
  rw [hseen] at halone
  refine ⟨⟨halone, settled_alone hv⟩, ?_⟩
  rw [hclock]
  exact Clockwork.settle_induction (fun _ _ h hstep => h.step hstep)
    ⟨fun t ht => hq.tasks t (touched.tasks ▸ ht), touched.calls.trans hq.calls⟩

end World

namespace Scenario.Dispatch

variable {s : Setting} {w : World}

/-! ### Refusals -/

/-- Everything that was seen. -/
def Report.seen (r : Report) : List Entry := r.journal ++ (r.afterwards.map Prod.fst).getD []

theorem sleep_quiet {o : Operation} {outcome : Except Fault Answer} {tick : Tick} {v : World} (h : v.Alone o)
    (hd : o.stage = .done outcome tick) (hq : v.clock.Quiet) (ticks : Nat) :
    (v.takeJournal.1.sleep ticks).1.clock.Quiet := by
  refine World.passTime_quiet (watched_alone h ticks) hd ⟨fun t ht => ?_, rfl⟩ _ _
  rcases List.mem_append.mp ht with ht | ht
  · exact hq.tasks t ht
  · exact ⟨.atTick (v.now + ticks), by rw [List.mem_singleton.mp ht]; rfl⟩

/-- The outcome is a refusal: it comes at once, and nobody is called. -/
structure Report.Refused (r : Report) (f : Fault) : Prop where
  outcome : r.outcome = some (.error f)
  tick : r.tick = 0
  uncalled : ∀ e ∈ r.seen, e.isCall = false

/-- A refusal changes nothing but that the operation is done. -/
theorem begun_refused {f : Fault} (hw : s.world = .ok w)
    (h : FanOut.invited w.service.ledger.registry s.kind (w.isCancelled s.token) = .error f) :
    w.begin s.order s.token = (s.begun w, 0) ∧ (s.begun w).clock = w.clock ∧
      (s.begun w).Alone { token := s.token, stage := .done (.error f) w.now } := by
  have start := unstarted_world hw
  have hbegin := World.begin_refused s.payload s.context start.operations h
  have hbegun : s.begun w = _ := congrArg Prod.fst hbegin
  refine ⟨hbegun ▸ hbegin, by rw [hbegun], ?_⟩
  rw [hbegun]
  exact ⟨rfl, rfl, start.tellings, .inr ⟨_, _, rfl⟩, start.numbered, start.timely⟩

theorem run_refused {f : Fault} (hw : s.world = .ok w)
    (h : FanOut.invited w.service.ledger.registry s.kind (w.isCancelled s.token) = .error f) :
    ∃ r, run s = .ok r ∧ r.Refused f := by
  have start := unstarted_world hw
  obtain ⟨hbegin, hclock, halone⟩ := begun_refused hw h
  have hnow : (s.begun w).now = 0 := (congrArg Clockwork.now hclock).trans (congrArg Clockwork.now start.clock)
  have hquiet : (s.begun w).clock.Quiet := by
    rw [hclock, start.clock]
    exact ⟨by simp, rfl⟩
  obtain ⟨v, hv, htick⟩ := World.waitFor_done halone rfl
  have hvalone := World.passTime_done halone rfl (fun w => (w.outcome? 0).isSome) (s.begun w).patience
  have hvquiet := World.passTime_quiet halone rfl hquiet (fun w => (w.outcome? 0).isSome) (s.begun w).patience
  have hfst : ((s.begun w).passTime (fun w => (w.outcome? 0).isSome) (s.begun w).patience).1 = v := congrArg Prod.fst hv
  rw [hfst] at hvalone hvquiet
  refine ⟨_, run_eq hw hbegin hv, ?_, ?_, fun e he => ?_⟩
  · rw [if_pos rfl]
    exact congrArg (Option.map Prod.fst) (sleep_done hvalone rfl s.drain).outcome?
  · rw [if_pos rfl]
    exact htick.trans hnow
  · rw [if_pos rfl] at he
    have huncalled {c : Clockwork} (hq : c.Quiet) (hmem : e ∈ c.journal.reverse) : e.isCall = false := by
      have hno := List.filter_eq_nil_iff.mp hq.calls e (List.mem_reverse.mp hmem)
      simpa using hno
    rcases List.mem_append.mp he with he | he
    · exact huncalled hvquiet he
    · exact huncalled (sleep_quiet hvalone rfl hvquiet s.drain) he

/-! ### Decisions -/

/-- The clockwork once nothing is due any more. -/
def Setting.aftermath (s : Setting) (w : World) : Clockwork := ((s.begun w).waitFor fun _ => false).1.clock

/-- When and how the calls end. -/
def Setting.courses (s : Setting) (w : World) : Courses :=
  (s.aftermath w).courses (s.flight w).calls

/-- What is left when nothing is due any more foretells the decision. -/
theorem endsWith_aftermath (hw : s.world = .ok w)
    (h : FanOut.invited w.service.ledger.registry s.kind (w.isCancelled s.token) = .ok (s.listed w)) :
    World.EndsWith (s.aftermath w) (s.begun w) := by
  obtain ⟨-, -, -, halone⟩ := begun_alone hw h
  exact ⟨_, Nat.lt_of_le_of_lt (World.settle_pending_le halone) (World.pending_lt_patience _), rfl⟩

/-- A fan-out that is not refused ends with what decides it in the aftermath, or never. -/
theorem run_decided (hw : s.world = .ok w)
    (h : FanOut.invited w.service.ledger.registry s.kind (w.isCancelled s.token) = .ok (s.listed w))
    (hlisted : s.listed w ≠ []) :
    ∃ r, run s = .ok r ∧ r.outcome.map (fun outcome => (outcome, r.tick)) =
      World.answered (FanOut.decision s.kind ((s.aftermath w).cancelledAt? s.token)
        (FanOut.closedForm s.kind s.policy (s.courses w))) := by
  have hcalls : (s.flight w).calls ≠ [] := by
    rw [Setting.flight, World.call_eq]
    simpa using hlisted
  exact run_foretold hw h (World.foretells_decision hcalls (s.aftermath w)) (endsWith_aftermath hw h)

theorem Report.ends_of_answered {r : Report} {tick : Tick} {outcome : Except Fault Result}
    (h : r.outcome.map (fun outcome => (outcome, r.tick)) = World.answered (some (tick, outcome))) :
    r.outcome = some (outcome.map .result) ∧ r.tick = tick := by
  obtain ⟨a, ha, hpair⟩ := Option.map_eq_some_iff.mp h
  obtain ⟨rfl, htick⟩ := Prod.mk.inj hpair
  exact ⟨ha, htick⟩

/-- **Cancellation comes first.**  A fan-out is refused for its kind, for want of providers, or because its token is
cancelled, in this order and without a call.  Otherwise a cancellation of the token at a tick up to that of the decision
by the calls ends it at that tick; without one the decision stands; and without either it never ends. -/
theorem run_cancellation (hw : s.world = .ok w) :
    ∃ r, run s = .ok r ∧
      (s.kind.fansOut = false → r.Refused (.unsupported s.kind none)) ∧
      (s.kind.fansOut = true → s.listed w = [] → r.Refused (.noProviders s.kind)) ∧
      (s.kind.fansOut = true → s.listed w ≠ [] → w.isCancelled s.token = true →
        r.Refused (.cancelled (some s.kind.value) none)) ∧
      (s.kind.fansOut = true → s.listed w ≠ [] → w.isCancelled s.token = false →
        (∀ c, (s.aftermath w).cancelledAt? s.token = some c →
          (∀ x, FanOut.closedForm s.kind s.policy (s.courses w) = some x → c ≤ x.1) →
          r.outcome = some (.error (.cancelled (some s.kind.value) none)) ∧ r.tick = c) ∧
        (∀ tick outcome, FanOut.closedForm s.kind s.policy (s.courses w) = some (tick, outcome) →
          (∀ c, (s.aftermath w).cancelledAt? s.token = some c → tick < c) →
          r.outcome = some (outcome.map .result) ∧ r.tick = tick) ∧
        ((s.aftermath w).cancelledAt? s.token = none →
          FanOut.closedForm s.kind s.policy (s.courses w) = none → r.outcome = none)) := by
  have hinvited := invited_eq s w
  by_cases hkind : s.kind.fansOut = false
  · rw [if_pos hkind] at hinvited
    obtain ⟨r, hr, href⟩ := run_refused hw hinvited
    exact ⟨r, hr, fun _ => href, by simp [hkind], by simp [hkind], by simp [hkind]⟩
  rw [if_neg hkind] at hinvited
  by_cases hlisted : s.listed w = []
  · rw [if_pos hlisted] at hinvited
    obtain ⟨r, hr, href⟩ := run_refused hw hinvited
    exact ⟨r, hr, fun h => absurd h hkind, fun _ _ => href, fun _ h => absurd hlisted h, fun _ h => absurd hlisted h⟩
  rw [if_neg hlisted] at hinvited
  by_cases hcancelled : w.isCancelled s.token = true
  · rw [if_pos hcancelled] at hinvited
    obtain ⟨r, hr, href⟩ := run_refused hw hinvited
    exact ⟨r, hr, fun h => absurd h hkind, fun _ h => absurd h hlisted, fun _ _ _ => href,
      fun _ _ h => by rw [hcancelled] at h; cases h⟩
  rw [if_neg hcancelled] at hinvited
  obtain ⟨r, hr, hdecided⟩ := run_decided hw hinvited hlisted
  refine ⟨r, hr, fun h => absurd h hkind, fun _ h => absurd h hlisted, fun _ _ h => absurd h hcancelled,
    fun _ _ _ => ⟨fun c hc hfirst => ?_, fun tick outcome hform hlate => ?_, fun hc hform => ?_⟩⟩
  · rw [hc, FanOut.decision_of_cancelled hfirst] at hdecided
    exact Report.ends_of_answered hdecided
  · rw [hform, FanOut.decision_of_late hlate] at hdecided
    exact Report.ends_of_answered hdecided
  · rw [hc, hform] at hdecided
    exact Option.map_eq_none_iff.mp hdecided

/-- One provider has succeeded and been waited for when the other, in the tick of its own success, cancels the token. -/
def overtaken : Setting :=
  .chat .bestEffort
    [("quick", { delay := 1, outcome := .ok fun kind => .ok (.emptyFor kind) }),
      ("last", { delay := 2, cancel := some "stop", outcome := .ok fun kind => .ok (.emptyFor kind) })]
    (.source "stop") []

theorem run_overtaken :
    ∃ r, run overtaken = .ok r ∧ r.outcome = some (.error (.cancelled (some "chat") none)) ∧ r.tick = 2 := by
  obtain ⟨r, hr, -, -, -, h⟩ := run_cancellation (s := overtaken) rfl
  exact ⟨r, hr, (h rfl (by decide) (by decide)).1 2 (by decide) (by decide)⟩

end Scenario.Dispatch

end Orchestra
