import Orchestra.Proofs.Dispatch.Decision
import Orchestra.Proofs.Service.Course
import Orchestra.Scenario.Dispatch

/-!
# Orchestra.Proofs.Dispatch.Run — a scenario with one fan-out, from its beginning to its report

The fan-out is refused or begins with a task for every provider that is listed, alone in its world; what it then ends with
is what is foretold of it (`run_foretold`), and stands while the providers are watched further.
-/

namespace Orchestra

namespace Clockwork

variable {c : Clockwork}

theorem Numbered.add (h : c.Numbered) {t : Task} (ht : t.id = c.nextTask) :
    ({ c with nextTask := c.nextTask + 1, tasks := c.tasks ++ [t] } : Clockwork).Numbered := by
  have hperm : (({ c with nextTask := c.nextTask + 1, tasks := c.tasks ++ [t] } : Clockwork).ids).Perm
      (c.nextTask :: c.ids) := by
    unfold ids
    rw [List.map_append, List.map_cons, List.map_nil, ht, List.append_assoc]
    exact List.perm_middle
  refine ⟨hperm.nodup_iff.mpr (List.nodup_cons.mpr ⟨fun hmem => ?_, h.nodup⟩), fun i hi => ?_⟩
  · exact Nat.lt_irrefl _ (h.issued _ hmem)
  · rcases List.mem_cons.mp (hperm.mem_iff.mp hi) with rfl | hi
    · exact Nat.lt_succ_self _
    · exact Nat.lt_succ_of_lt (h.issued i hi)

end Clockwork

namespace World

variable {w : World} {kind : Capability} {payload : Payload} {context : Context} {token : Token}

theorem call_numbered (h : w.clock.Numbered) (ps : List ProviderRef) :
    (w.call kind payload context token ps).1.clock.Numbered := by
  induction ps generalizing w with
  | nil => exact h
  | cons p ps ih => exact ih (w := { w with clock := _ }) (h.add rfl)

/-! ### The beginning -/

theorem begin_refused {f : Fault} (payload : Payload) (context : Context) (hops : w.operations = [])
    (h : FanOut.invited w.service.ledger.registry kind (w.isCancelled token) = .error f) :
    w.begin (.bare kind payload context) token =
      ({ w with operations := [{ token, stage := .done (.error f) w.now }] }, 0) := by
  have h' : FanOut.invited w.service.ledger.registry kind (w.clock.isCancelled token) = .error f := h
  simp only [begin, launch, hops, isCancelled, h']
  simp [complete, setStage, modifyOperation, now]

theorem begin_launched {ps : List ProviderRef} (payload : Payload) (context : Context) (hops : w.operations = [])
    (h : FanOut.invited w.service.ledger.registry kind (w.isCancelled token) = .ok ps) :
    w.begin (.bare kind payload context) token =
      ({ w with
          clock := (w.call kind payload context token ps).1.clock
          operations := [{
            token
            stage := .flying ⟨kind, w.service.config.policy, (w.call kind payload context token ps).2⟩ }] }, 0) := by
  have h' : FanOut.invited w.service.ledger.registry kind (w.clock.isCancelled token) = .ok ps := h
  simp only [begin, launch, hops, isCancelled, h', call_eq]
  simp [setStage, modifyOperation]

/-- Patience lasts as long as anything is left to happen. -/
theorem pending_lt_patience (w : World) : w.pending < w.patience := by
  unfold pending patience
  omega

end World

namespace Scenario.Dispatch

/-- A chat among providers that are known by their ids and reply to their first call like this. -/
def Setting.chat (policy : Policy) (replies : List (String × Reply (Capability → Except Fault Result))) (token : Token)
    (agenda : List (Tick × Deed)) : Setting where
  policy
  kind := .chat
  payload := .text "hello"
  context := {}
  providers := replies.map fun r => .scripted
    { key := r.1, id := r.1, capabilities := [.chat], script := ⟨r.2, []⟩, init := { outcome := .ok () },
      disposeFault := none }
  registered := List.range replies.length
  token
  cancelled := []
  agenda
  drain := 0

/-! ### The world of a setting -/

variable {s : Setting} {w : World}

theorem registerAll_eq {w' : World} {indices : List Nat} (h : w.registerAll indices = .ok w') :
    ∃ ledger owned, w' = w.withLedger ledger owned := by
  induction indices generalizing w with
  | nil => exact ⟨w.service.ledger, w.service.owned, by cases h; rfl⟩
  | cons index rest ih =>
    unfold World.registerAll at h
    split at h
    · exact ih h
    · rename_i p _
      rcases hr : w.register p none with f | ⟨v, handle⟩
      · rw [hr] at h; cases h
      · rw [hr] at h
        obtain ⟨ledger, -, rfl⟩ := World.register_eq hr
        have hrest : (w.withLedger (ledger.onDispose handle .forget) (w.service.owned ++ [handle])).registerAll rest =
            .ok w' := h
        obtain ⟨ledger, owned, heq⟩ := ih hrest
        exact ⟨ledger, owned, heq⟩

/-- The world before anything has happened in it. -/
structure Unstarted (s : Setting) (w : World) : Prop where
  operations : w.operations = []
  tellings : w.tellings = []
  clock : w.clock = { cancelled := s.cancelled.map (·, 0), providers := s.providers }
  policy : w.service.config.policy = s.policy

/-- A world with a new service has nothing in it but providers and cancelled sources. -/
theorem bare_eq {policy : Policy} {providers : List Provider} {cancelled : List String} {b : World}
    (h : World.bare policy providers cancelled = .ok b) :
    ∃ service, b = {
        clock := { cancelled := cancelled.map (·, 0), providers }, service, suffix := fun _ _ => ""
        display := Display.result } ∧
      service.config.policy = policy ∧ service.ledger = {} := by
  unfold World.bare at h
  rcases hc : Config.ofObject [] with f | config
  · rw [hc] at h; cases h
  · rw [hc] at h
    unfold Service.new at h
    rcases hs : ContextStore.new config.historyLimit with f | store
    · simp [bind, Except.bind, hs] at h
    · simp only [bind, Except.bind, hs, pure, Except.pure] at h
      cases h
      exact ⟨_, rfl, rfl, rfl⟩

theorem world_eq (hw : s.world = .ok w) :
    ∃ b v, World.bare s.policy s.providers s.cancelled = .ok b ∧ b.registerAll s.registered = .ok v ∧
      w = { v with agenda := s.agenda } := by
  unfold Setting.world at hw
  rcases hb : World.bare s.policy s.providers s.cancelled with f | b
  · rw [hb] at hw; cases hw
  · rcases hv : b.registerAll s.registered with f | v
    · simp [hb, hv, bind, Except.bind] at hw
    · simp only [hb, hv, bind, Except.bind, pure, Except.pure] at hw
      cases hw
      exact ⟨b, v, rfl, hv, rfl⟩

theorem unstarted_world (hw : s.world = .ok w) : Unstarted s w := by
  obtain ⟨b, v, hb, hv, rfl⟩ := world_eq hw
  obtain ⟨service, rfl, hpolicy, -⟩ := bare_eq hb
  obtain ⟨ledger, owned, rfl⟩ := registerAll_eq hv
  exact ⟨rfl, rfl, rfl, hpolicy⟩

theorem Unstarted.numbered (h : Unstarted s w) : w.clock.Numbered := by
  rw [h.clock]
  exact ⟨List.nodup_nil, by simp [Clockwork.ids]⟩

theorem Unstarted.timely (h : Unstarted s w) : w.clock.Timely := by
  rw [h.clock]
  refine ⟨by simp, by simp, fun x hx => ?_⟩
  obtain ⟨name, -, rfl⟩ := List.mem_map.mp hx
  exact Nat.le_refl _

/-! ### A run -/

/-- The world right after the fan-out has begun. -/
def Setting.begun (s : Setting) (w : World) : World := (w.begin s.order s.token).1

/-- The providers that the fan-out would call. -/
def Setting.listed (s : Setting) (w : World) : List ProviderRef := w.service.ledger.registry.providersFor s.kind

/-- Whether the fan-out is refused, and for what. -/
theorem invited_eq (s : Setting) (w : World) :
    FanOut.invited w.service.ledger.registry s.kind (w.isCancelled s.token) =
      if s.kind.fansOut = false then .error (.unsupported s.kind none)
      else if s.listed w = [] then .error (.noProviders s.kind)
      else if w.isCancelled s.token = true then .error (.cancelled (some s.kind.value) none)
      else .ok (s.listed w) := by
  unfold FanOut.invited Setting.listed
  cases s.kind.fansOut with
  | false => rfl
  | true => cases w.service.ledger.registry.providersFor s.kind <;> rfl

/-- The flight of the fan-out, unless it is refused. -/
def Setting.flight (s : Setting) (w : World) : Flight :=
  ⟨s.kind, s.policy, (w.call s.kind s.payload s.context s.token (s.listed w)).2⟩

/-- What is reported once the outcome has come, or will not come. -/
theorem run_eq {b v : World} {came : Bool} (hw : s.world = .ok w) (hb : w.begin s.order s.token = (b, 0))
    (h : b.waitFor (fun w => (w.outcome? 0).isSome) = (v, came)) :
    run s = .ok
      (if came then
        let later := (v.takeJournal.1.sleep s.drain).1
        ⟨(later.outcome? 0).map Prod.fst, v.takeJournal.2, v.now, some (later.takeJournal.2, later.now), later.records⟩
      else ⟨none, v.takeJournal.2, v.now, none, v.records⟩) := by
  unfold run
  rw [hw]
  simp only [bind, Except.bind, hb, h]
  cases came <;> rfl

/-- The world while its providers are watched for some ticks more. -/
def watched (v : World) (ticks : Nat) : World :=
  { v.takeJournal.1 with clock := (v.takeJournal.1.clock.spawnTimer ticks).1 }

theorem watched_alone {o : Operation} {v : World} (h : v.Alone o) (ticks : Nat) : (watched v ticks).Alone o := by
  have hn : v.takeJournal.1.clock.Numbered := ⟨h.numbered.nodup, h.numbered.issued⟩
  exact ⟨h.operations, h.request, h.tellings, h.stage, hn.add rfl,
    ⟨h.timely.ended, h.timely.sorted, h.timely.cancelled⟩⟩

/-- The outcome that has come stands while the providers are watched. -/
theorem sleep_done {o : Operation} {outcome : Except Fault Answer} {tick : Tick} {v : World} (h : v.Alone o)
    (hd : o.stage = .done outcome tick) (ticks : Nat) : (v.takeJournal.1.sleep ticks).1.Alone o :=
  World.passTime_done (watched_alone h ticks) hd _ _

/-- The flight begins alone in its world, with nothing but its calls to wait for. -/
theorem begun_alone (hw : s.world = .ok w)
    (h : FanOut.invited w.service.ledger.registry s.kind (w.isCancelled s.token) = .ok (s.listed w)) :
    w.begin s.order s.token = (s.begun w, 0) ∧ (s.begun w).now = 0 ∧
      (s.begun w).clock = (w.call s.kind s.payload s.context s.token (s.listed w)).1.clock ∧
      (s.begun w).Alone { token := s.token, stage := .flying (s.flight w) } := by
  have start := unstarted_world hw
  have hbegin := World.begin_launched s.payload s.context start.operations h
  rw [start.policy] at hbegin
  have hbegun : s.begun w = _ := congrArg Prod.fst hbegin
  have hnow : (w.call s.kind s.payload s.context s.token (s.listed w)).1.now = 0 := by
    rw [World.call_eq]
    exact congrArg Clockwork.now start.clock
  refine ⟨hbegun ▸ hbegin, by rw [hbegun]; exact hnow, by rw [hbegun], ?_⟩
  rw [hbegun]
  refine ⟨rfl, rfl, start.tellings, .inl ⟨_, rfl⟩, World.call_numbered start.numbered _, ?_⟩
  rw [World.call_eq]
  exact ⟨start.timely.ended, start.timely.sorted, start.timely.cancelled⟩

/-- **A fan-out that is not refused ends as foretold.** -/
theorem run_foretold {P Q : World → Prop} {d : Option (Tick × Except Fault Result)} (hw : s.world = .ok w)
    (h : FanOut.invited w.service.ledger.registry s.kind (w.isCancelled s.token) = .ok (s.listed w))
    (hd : World.Foretells P Q (s.flight w) s.token d) (hbegun : P (s.begun w)) :
    ∃ r, run s = .ok r ∧ r.outcome.map (fun outcome => (outcome, r.tick)) = World.answered d := by
  obtain ⟨hbegin, hnow, -, halone⟩ := begun_alone hw h
  have hfuel := Nat.lt_of_le_of_lt (World.settle_pending_le halone) (World.pending_lt_patience _)
  obtain ⟨v, o, hwait, hv, hout, htick⟩ := World.passTime_foretold halone rfl hd hfuel hbegun
    fun x _ => by rw [hnow]; exact Nat.zero_le _
  have hwait : (s.begun w).waitFor (fun w => (w.outcome? 0).isSome) = (v, d.isSome) := hwait
  refine ⟨_, run_eq hw hbegin hwait, ?_⟩
  cases d with
  | none => rfl
  | some x =>
    obtain ⟨tick, outcome⟩ := x
    have hstage : o.stage = .done (outcome.map .result) tick := by
      unfold Operation.outcome? at hout
      split at hout
      · rename_i hs
        obtain ⟨rfl, rfl⟩ := Prod.mk.inj (Option.some.inj hout)
        exact hs
      · cases hout
    have hlater : (v.takeJournal.1.sleep s.drain).1.outcome? 0 = some (outcome.map .result, tick) :=
      (sleep_done hv hstage s.drain).outcome?.trans hout
    have hv : v.now = tick := htick _ rfl
    show ((((v.takeJournal.1.sleep s.drain).1.outcome? 0).map Prod.fst).map fun outcome => (outcome, v.now)) = _
    rw [hlater, hv]
    rfl

end Scenario.Dispatch

end Orchestra
