import Orchestra.Proofs.Clockwork.Foresight
import Orchestra.Proofs.Dispatch.Cancellation
import Orchestra.Proofs.Registry.Projection

/-!
# Orchestra.Proofs.Dispatch.Assignment — the outcome of a fan-out from what its providers are assigned

Every provider's script assigns a course to its call.  Unless the token is cancelled first, the fan-out ends at the tick
and with the outcome that the closed form gives for the assigned courses, and never ends if it gives none
(`run_closedForm`).
-/

namespace Orchestra

namespace Clockwork

variable {c c' : Clockwork} {token : Token} {kind : Capability} {payload : Payload} {context : Context}
  {calls : FanOut.Calls} {courseOf : ProviderRef × Nat → Course}

theorem Foreseen.settle (h : c.Foreseen token kind payload context calls courseOf) (hn : c.Numbered)
    (hindices : (calls.map (·.1.index)).Nodup) : c.settle.Foreseen token kind payload context calls courseOf :=
  (settle_induction (P := fun c => c.Numbered ∧ c.Foreseen token kind payload context calls courseOf)
    (fun _ _ h hstep => ⟨h.1.step hstep, h.2.step h.1 hindices hstep⟩) ⟨hn, h⟩).2

/-- Neither time nor deeds change what calls head for that have begun, as long as no task is passed over. -/
theorem Foreseen.next (h : c.Foreseen token kind payload context calls courseOf) (hs : c.step = none) {tick : Tick}
    (hdue : ∀ t ∈ c.tasks, ∀ due moves last, t.state = .waiting (.atTick due) moves last → tick ≤ due)
    (touched : Touched (c.at_ tick) c') : c'.Foreseen token kind payload context calls courseOf := by
  have hbegun {t : Task} {start : Start} (ht : t ∈ c.tasks) (hstate : t.state = .fresh start) : False := by
    have hno := step_eq_none.mp hs t ht
    rw [isReady, hstate] at hno
    cases hno
  have htasks : c'.tasks = c.tasks := touched.tasks
  have hended : c'.ended = c.ended := touched.ended
  have hnow : c'.now = tick := touched.now
  refine ⟨fun t ht start hstate => (hbegun (htasks ▸ ht) hstate).elim, fun hc call hcall => .inl ?_⟩
  have hbefore : (c.at_ tick).isCancelled token = false := not_cancelled_before touched.cancelled hc
  rcases h.heads hbefore call hcall with (⟨e, he, hid, hcourse⟩ |
    ⟨t, ht, hid, htoken, due, moves, last, hstate, -, hcourse⟩ |
    ⟨t, ht, hid, htoken, wake, moves, last, hstate, hwake, hcourse⟩) | ⟨⟨t, ht, -, -, hstate⟩, -⟩
  · exact .ended e (hended ▸ he) hid hcourse
  · exact .pausing t (htasks ▸ ht) hid htoken due moves last hstate (hnow ▸ hdue t ht due moves last hstate) hcourse
  · exact .stuck t (htasks ▸ ht) hid htoken wake moves last hstate hwake hcourse
  · exact (hbegun ht hstate).elim

end Clockwork

namespace World

variable {w : World} {token : Token} {kind : Capability} {payload : Payload} {context : Context} {calls : FanOut.Calls}
  {courseOf : ProviderRef × Nat → Course} {e : Clockwork} {d : Option (Tick × Except Fault Result)}

/-- The courses that are assigned to the calls. -/
def coursesBy (calls : FanOut.Calls) (courseOf : ProviderRef × Nat → Course) : Courses :=
  calls.map fun call => (call.1, courseOf call)

/-- Before the decision the token is not cancelled, if it is cancelled only after it. -/
theorem not_cancelled_early {o : Operation} (h : w.Alone o) (hs : w.Settled) (he : EndsWithFrom e w)
    (hlate : ∀ c, e.cancelledAt? token = some c → ∃ x, d = some x ∧ x.1 < c)
    (hearly : ∀ x, d = some x → w.now ≤ x.1) : w.clock.isCancelled token = false := by
  obtain ⟨-, hgrows, -⟩ := he.grows h hs
  rw [Clockwork.isCancelled_eq, Clockwork.cancelledAt?_of_grows h.timely hgrows]
  cases hc : e.cancelledAt? token with
  | none => rfl
  | some c =>
    obtain ⟨x, hx, hlt⟩ := hlate c hc
    have hno : ¬ c ≤ w.clock.now := Nat.not_le_of_lt (Nat.lt_of_le_of_lt (hearly x hx) hlt)
    simp [Option.filter, hno]

/-- **What is assigned foretells the closed form**, for a token that is cancelled after the decision only. -/
theorem foretells_closedForm {f : Flight} (hne : f.calls ≠ []) (hindices : (f.calls.map (·.1.index)).Nodup)
    (hd : d = FanOut.closedForm f.kind f.policy (coursesBy f.calls courseOf))
    (hlate : ∀ c, e.cancelledAt? token = some c → ∃ x, d = some x ∧ x.1 < c) :
    Foretells (fun w => EndsWith e w ∧ w.doDue.clock.Foreseen token f.kind payload context f.calls courseOf)
      (fun w => EndsWithFrom e w ∧ w.clock.Foreseen token f.kind payload context f.calls courseOf) f token d where
  settle w o h hP := by
    obtain ⟨clock, touched, hdue, hclock, -, -⟩ := settle_alone h
    refine ⟨hP.1.settle h, ?_⟩
    rw [hclock]
    exact (hdue ▸ hP.2).settle (touched.numbered h.numbered) hindices
  next w o tick h hs hQ hnext := by
    obtain ⟨clock, ledger, owned, hdue, touched⟩ := doDue_eq (w.at_ tick)
    refine ⟨?_, ?_⟩
    · have he := hQ.1
      rw [EndsWithFrom, hnext] at he
      exact he
    · rw [hdue]
      exact hQ.2.next hs.step (nextDue_alone h hnext).2 touched
  look w o h hs hQ hearly := by
    have hc := not_cancelled_early h hs hQ.1 hlate hearly
    have hcourses : w.clock.courses f.calls = FanOut.known w.now (coursesBy f.calls courseOf) := by
      unfold Clockwork.courses FanOut.coursesOf FanOut.known coursesBy
      rw [List.map_map]
      exact List.map_congr_left fun call hcall => by
        rw [hQ.2.course_eq h.numbered h.timely hs.step hc hcall]
        rfl
    rw [Clockwork.look_eq h.timely h.numbered, ← Clockwork.isCancelled_eq, hc, hcourses,
      FanOut.closedForm_known (by simpa [coursesBy] using hne), ← hd]
    rfl
  due w o x h hs hQ hx hlt := by
    have hc := not_cancelled_early h hs hQ.1 hlate fun y hy => by
      obtain rfl : x = y := Option.some.inj (hx.symm.trans hy)
      exact Nat.le_of_lt hlt
    obtain ⟨pair, hpair, y, hy⟩ := FanOut.exists_of_closedForm (by simpa [coursesBy] using hne) (hd.symm.trans hx)
    obtain ⟨call, hcall, rfl⟩ := List.mem_map.mp hpair
    obtain ⟨t, ht, tick, moves, last, hstate, hle⟩ := hQ.2.exists_waiting h.timely hs.step hc hcall hy hlt
    cases hnext : w.nextDue with
    | none =>
      unfold nextDue at hnext
      rw [List.min?_eq_none_iff, List.append_eq_nil_iff, List.append_eq_nil_iff, Option.toList_eq_nil_iff,
        Clockwork.nextDue, List.min?_eq_none_iff] at hnext
      have hno := List.filterMap_eq_nil_iff.mp hnext.1.1 t ht
      rw [hstate] at hno
      cases hno
    | some next => exact ⟨next, rfl, Nat.le_trans ((nextDue_alone h hnext).2 t ht tick moves last hstate) hle⟩

end World

namespace Scenario.Dispatch

variable {s : Setting} {w : World}

/-! ### The providers of a kind are told apart -/

theorem registerAll_projected {w' : World} {ids : Nat → String} {indices : List Nat}
    (h : w.registerAll indices = .ok w') (hids : ∀ index p, w.providerRef index = some p → p.id = ids p.index)
    (hw : w.service.ledger.Projected ids) : w'.service.ledger.Projected ids := by
  induction indices generalizing w with
  | nil =>
    cases h
    exact hw
  | cons index rest ih =>
    unfold World.registerAll at h
    split at h
    · exact ih h hids hw
    · rename_i p hp
      rcases hr : w.register p none with f | ⟨v, handle⟩
      · rw [hr] at h; cases h
      · rw [hr] at h
        obtain ⟨ledger, hledger, rfl⟩ := World.register_eq hr
        have hrest : (w.withLedger (ledger.onDispose handle .forget) (w.service.owned ++ [handle])).registerAll rest =
            .ok w' := h
        exact ih hrest hids ((hw.register (hids index p hp) hledger).onDispose handle .forget)

/-- No provider is listed twice for a kind. -/
theorem listed_indices_nodup (hw : s.world = .ok w) : ((s.listed w).map (·.index)).Nodup := by
  obtain ⟨b, v, hb, hv, rfl⟩ := world_eq hw
  obtain ⟨service, rfl, -, hledger⟩ := bare_eq hb
  obtain ⟨ids, hproj⟩ : ∃ ids, v.service.ledger.Projected ids := by
    refine ⟨fun index => (s.providers[index]?).elim "" fun q => (q.ref index).id, registerAll_projected hv ?_ ?_⟩
    · intro index p hp
      obtain ⟨q, hq, rfl⟩ := Option.map_eq_some_iff.mp hp
      have hindex : (q.ref index).index = index := by cases q <;> rfl
      have hq : s.providers[index]? = some q := hq
      simp only [hindex, hq, Option.elim_some]
    · simp only [hledger]
      exact Ledger.projected_empty
  have hids := hproj.nodup s.kind
  have hid {p : ProviderRef} (hp : p ∈ v.service.ledger.registry.providersFor s.kind) :
      p.id = ids p.index := by
    rw [hproj.listed] at hp
    obtain ⟨r, hr, rfl⟩ := List.mem_map.mp hp
    exact hproj.stable r (List.mem_of_mem_filter hr)
  have hmap : (v.service.ledger.registry.providersFor s.kind).map (·.id) =
      ((v.service.ledger.registry.providersFor s.kind).map (·.index)).map ids := by
    rw [List.map_map]
    exact List.map_congr_left fun p hp => hid hp
  exact (hmap ▸ hids).of_map _

/-! ### The closed form -/

/-- When and how the calls end, by what their providers are assigned at the beginning, if the token is not cancelled. -/
def Setting.assigned (s : Setting) (w : World) : Courses :=
  (s.listed w).map fun p => (p, (s.begun w).doDue.clock.assigned s.kind s.payload s.context p.index)

theorem flight_listed (s : Setting) (w : World) : (s.flight w).calls.map Prod.fst = s.listed w := by
  rw [Setting.flight, World.call_eq, List.zipIdx_map_fst]

/-- A token that is cancelled only after some tick was not cancelled at the beginning. -/
theorem not_cancelled_at_start (hw : s.world = .ok w)
    (hlate : ∀ c, (s.aftermath w).cancelledAt? s.token = some c → 0 < c) : w.isCancelled s.token = false := by
  have start := unstarted_world hw
  by_contra hcancelled
  rw [Bool.not_eq_false, World.isCancelled, Clockwork.isCancelled_eq] at hcancelled
  obtain ⟨c, hc⟩ := Option.isSome_iff_exists.mp hcancelled
  have hzero : c = 0 := Nat.le_zero.mp <| by
    obtain ⟨name, -, hmem⟩ := Clockwork.mem_of_cancelledAt? hc
    have hle := start.timely.cancelled _ hmem
    rw [start.clock] at hle
    exact hle
  obtain ⟨f, hrefused⟩ : ∃ f, FanOut.invited w.service.ledger.registry s.kind (w.isCancelled s.token) = .error f := by
    have hw : w.isCancelled s.token = true := (Clockwork.isCancelled_eq _ _).trans hcancelled
    rw [invited_eq, if_pos hw]
    split
    · exact ⟨_, rfl⟩
    · split <;> exact ⟨_, rfl⟩
  have hgrows : w.clock.Grows 0 (s.aftermath w) := by
    obtain ⟨-, hclock, halone⟩ := begun_refused hw hrefused
    have h := (World.passTime_grows halone (fun _ => false) (s.begun w).patience).2
    rw [hclock] at h
    exact h.mono (Nat.zero_le _)
  exact Nat.lt_irrefl 0 (hzero ▸ hlate c (hgrows.cancelledAt? hc))

/-- At the beginning every call is still to begin, and nothing else is. -/
theorem foreseen_begun (hw : s.world = .ok w)
    (h : FanOut.invited w.service.ledger.registry s.kind (w.isCancelled s.token) = .ok (s.listed w)) :
    (s.begun w).doDue.clock.Foreseen s.token s.kind s.payload s.context (s.flight w).calls
      fun call => (s.begun w).doDue.clock.assigned s.kind s.payload s.context call.1.index := by
  have start := unstarted_world hw
  obtain ⟨-, -, hclock, -⟩ := begun_alone hw h
  have htasks : (s.begun w).doDue.clock.tasks = (s.flight w).calls.map fun call =>
      ⟨call.2, s.token, .fresh (.call call.1.index s.kind s.payload s.context)⟩ := by
    obtain ⟨clock, ledger, owned, hdue, touched⟩ := World.doDue_eq (s.begun w)
    rw [hdue, Setting.flight]
    refine touched.tasks.trans ?_
    rw [hclock, World.call_eq]
    simp only [Clockwork.calling, start.clock, List.nil_append]
  refine ⟨fun t ht start hstate => ?_, fun _ call hcall => .inr ⟨⟨_, htasks ▸ List.mem_map_of_mem hcall, rfl, rfl,
    rfl⟩, rfl⟩⟩
  rw [htasks] at ht
  obtain ⟨call, hcall, rfl⟩ := List.mem_map.mp ht
  obtain rfl : _ = start := TaskState.fresh.inj hstate
  exact ⟨call, hcall, rfl, rfl⟩

/-- **The fan-out equals a closed form.**  If the token is cancelled only after the tick that the closed form of the
assigned courses gives, the fan-out ends at this tick and with this outcome; without such a tick it never ends. -/
theorem run_closedForm (hw : s.world = .ok w) (hkind : s.kind.fansOut = true) (hlisted : s.listed w ≠ [])
    (hlate : ∀ c, (s.aftermath w).cancelledAt? s.token = some c →
      ∃ x, FanOut.closedForm s.kind s.policy (s.assigned w) = some x ∧ x.1 < c) :
    ∃ r, run s = .ok r ∧
      r.outcome.map (fun outcome => (outcome, r.tick)) =
        (FanOut.closedForm s.kind s.policy (s.assigned w)).map fun x => (x.2.map .result, x.1) := by
  have hcancelled := not_cancelled_at_start hw fun c hc => by
    obtain ⟨x, -, hlt⟩ := hlate c hc
    exact Nat.lt_of_le_of_lt (Nat.zero_le _) hlt
  have hinvited := invited_eq s w
  rw [if_neg (by simp [hkind]), if_neg hlisted, if_neg (by simp [hcancelled])] at hinvited
  have hne : (s.flight w).calls ≠ [] := fun h => hlisted (by rw [← flight_listed, h]; rfl)
  have hindices : ((s.flight w).calls.map (·.1.index)).Nodup := by
    have hmap : (s.flight w).calls.map (·.1.index) = ((s.flight w).calls.map Prod.fst).map (·.index) := by
      rw [List.map_map]
      rfl
    rw [hmap, flight_listed]
    exact listed_indices_nodup hw
  have hassigned : s.assigned w = World.coursesBy (s.flight w).calls
      fun call => (s.begun w).doDue.clock.assigned s.kind s.payload s.context call.1.index := by
    rw [Setting.assigned, ← flight_listed, List.map_map]
    rfl
  rw [hassigned] at hlate ⊢
  exact run_foretold hw hinvited (World.foretells_closedForm hne hindices rfl hlate)
    ⟨endsWith_aftermath hw hinvited, foreseen_begun hw hinvited⟩

/-- Two calls fail in the tick in which a third succeeds; a fourth never ends. -/
def contested : Setting :=
  .chat .strict
    [("first", .ofCourse (some (1, .ok (.emptyFor .chat)))), ("second", .ofCourse (some (1, .error (.plain "down")))),
      ("third", .ofCourse (some (1, .error .interrupted))), ("fourth", .ofCourse none)]
    (.source "stop") [(2, .cancel "stop")]

theorem run_contested :
    ∃ r, run contested = .ok r ∧
      r.outcome.map (fun outcome => (outcome, r.tick)) =
        some (.error (.providerFailed "second" .chat (.plain "down")), 1) := by
  obtain ⟨r, hr, h⟩ := run_closedForm (s := contested) rfl rfl (by decide) (by decide)
  exact ⟨r, hr, h⟩

end Scenario.Dispatch

end Orchestra
