import Orchestra.Proofs.Accounting.Books
import Orchestra.Proofs.Service.Course

/-!
# Orchestra.Proofs.Runs.Retention — what operations and listeners leave as it is

An operation that begins or gets on, and listeners that react, never touch a provider, a registration or the hooks; hooks
that are to be told are added to those that are being told, under numbers that none had before, and so are the numbers
that operations wait for (`Retains`).  An operation that is aborted may first take its own hook off (`abort_retains`).
-/

namespace Orchestra

/-- If the operation waits for a hook, then for one of the first so many. -/
def Operation.WaitsBelow (o : Operation) (told : Nat) : Prop :=
  ∀ telling queue outcome, o.stage = .relaying telling queue outcome → telling < told

namespace World

/-- Providers, registrations and hooks are as before, and every telling goes on; new ones have new numbers. -/
structure Retains (w v : World) : Prop where
  providers : v.clock.providers = w.clock.providers
  ledger : v.service.ledger = w.service.ledger
  owned : v.service.owned = w.service.owned
  hooks : v.service.hooks = w.service.hooks
  told : w.told ≤ v.told
  tellings : ∃ new, v.tellings = w.tellings ++ new ∧ ∀ t ∈ new, w.told ≤ t.number ∧ t.number < v.told
  waiting : ∀ o ∈ v.operations, (∃ o' ∈ w.operations, o'.stage = o.stage) ∨ o.WaitsBelow v.told

variable {u v w : World}

/-- Where nothing changes but operations, and none begins to wait for a hook that was not there. -/
theorem Retains.of_operations (hproviders : v.clock.providers = w.clock.providers) (hservice : v.service = w.service)
    (htold : v.told = w.told) (htellings : v.tellings = w.tellings)
    (hwaiting : ∀ o ∈ v.operations, (∃ o' ∈ w.operations, o'.stage = o.stage) ∨ o.WaitsBelow w.told) : Retains w v :=
  ⟨hproviders, by rw [hservice], by rw [hservice], by rw [hservice], Nat.le_of_eq htold.symm,
    ⟨[], by rw [htellings, List.append_nil], List.forall_mem_nil _⟩, by rw [htold]; exact hwaiting⟩

/-- Where operations are as before as well. -/
theorem Retains.of_same (hproviders : v.clock.providers = w.clock.providers)
    (hledger : v.service.ledger = w.service.ledger) (howned : v.service.owned = w.service.owned)
    (hhooks : v.service.hooks = w.service.hooks) (htold : v.told = w.told) (htellings : v.tellings = w.tellings)
    (hoperations : v.operations = w.operations) : Retains w v :=
  ⟨hproviders, hledger, howned, hhooks, Nat.le_of_eq htold.symm,
    ⟨[], by rw [htellings, List.append_nil], List.forall_mem_nil _⟩, fun o ho => .inl ⟨o, hoperations ▸ ho, rfl⟩⟩

theorem Retains.refl (w : World) : Retains w w := .of_same rfl rfl rfl rfl rfl rfl rfl

theorem Retains.trans (h : Retains w v) (h' : Retains v u) : Retains w u := by
  obtain ⟨xs, hxs, hnew⟩ := h.tellings
  obtain ⟨ys, hys, hnew'⟩ := h'.tellings
  refine ⟨h'.providers.trans h.providers, h'.ledger.trans h.ledger, h'.owned.trans h.owned, h'.hooks.trans h.hooks,
    Nat.le_trans h.told h'.told, ⟨xs ++ ys, by rw [hys, hxs, List.append_assoc], fun t ht => ?_⟩, fun o ho => ?_⟩
  · rcases List.mem_append.mp ht with ht | ht
    · exact ⟨(hnew t ht).1, Nat.lt_of_lt_of_le (hnew t ht).2 h'.told⟩
    · exact ⟨Nat.le_trans h.told (hnew' t ht).1, (hnew' t ht).2⟩
  · obtain ⟨o', ho', hstage⟩ | hbelow := h'.waiting o ho
    · obtain ⟨o₀, ho₀, hstage₀⟩ | hbelow := h.waiting o' ho'
      · exact .inl ⟨o₀, ho₀, hstage₀.trans hstage⟩
      · exact .inr fun telling queue outcome hs =>
          Nat.lt_of_lt_of_le (hbelow telling queue outcome (hstage.trans hs)) h'.told
    · exact .inr hbelow

/-- One telling more, under the next number. -/
theorem Retains.of_telling {t : Telling} (hproviders : v.clock.providers = w.clock.providers)
    (hservice : v.service = w.service) (htold : v.told = w.told + 1)
    (htellings : v.tellings = w.tellings ++ [t]) (hnumber : t.number = w.told) (hoperations : v.operations = w.operations) :
    Retains w v := by
  refine ⟨hproviders, by rw [hservice], by rw [hservice], by rw [hservice], by omega, ⟨[t], htellings, fun t' ht => ?_⟩,
    fun o ho => .inl ⟨o, hoperations ▸ ho, rfl⟩⟩
  rw [List.mem_singleton.mp ht]
  omega

theorem foldl_retains {α : Type} {f : World → α → World} (hf : ∀ w a, Retains w (f w a)) (as : List α) (w : World) :
    Retains w (as.foldl f w) := by
  induction as generalizing w with
  | nil => exact .refl w
  | cons a as ih => exact (hf w a).trans (ih (f w a))

/-! ### Hooks and listeners -/

theorem log_retains (w : World) (e : Entry) : Retains w (w.log e) := .of_same rfl rfl rfl rfl rfl rfl rfl

theorem tell_retains (w : World) (hook : Hook) (delay : Nat) : Retains w (w.tell hook delay).1 :=
  .of_telling rfl rfl rfl rfl rfl rfl

theorem announce_retains (w : World) (hook : Hook) : Retains w (w.announce hook) := by
  unfold announce
  split
  · exact .refl w
  · exact .of_telling rfl rfl rfl rfl rfl rfl

theorem listen_retains (w : World) (stream : Stream) (name : String) (reaction : Option Reaction) :
    Retains w (w.listen stream name reaction) := .of_same rfl rfl rfl rfl rfl rfl rfl

theorem unlisten_retains (w : World) (name : String) : Retains w (w.unlisten name) := by
  unfold unlisten
  split
  · exact .refl w
  · exact .of_same rfl rfl rfl rfl rfl rfl rfl

theorem commit_retains {extras : Extras} {fields : Changes} {update : ContextUpdate}
    (h : w.commit extras fields = .ok (v, update)) : Retains w v := by
  unfold commit at h
  rcases hc : w.service.context.set extras fields with f | ⟨context, changed⟩
  · rw [hc] at h; cases h
  · rw [hc] at h; cases h; exact .of_same rfl rfl rfl rfl rfl rfl rfl

theorem deliver_retains (depth : Nat) (w : World) (e : BusEvent) : Retains w (deliver depth w e) := by
  induction depth generalizing w e with
  | zero => exact .refl w
  | succ depth ih =>
    rw [deliver]
    have hpublished : Retains w { w with published := w.published ++ [e] } := .of_same rfl rfl rfl rfl rfl rfl rfl
    refine hpublished.trans (foldl_retains (fun w l => ?_) _ _)
    have hlog := log_retains w (.event l.name e)
    dsimp only
    split
    · exact hlog
    · exact hlog
    · next another withdrawn language _ =>
      -- whoever comes or goes, and whoever is told of a new language, in turn
      have hupdate : ∀ {v v' : World} {update : ContextUpdate} {changes : Changes},
          v.commit .nothing changes = .ok (v', update) → Retains w v →
          Retains w ((deliver depth v' (.context update)).announce (.contextChanged update)) :=
        fun hcommit hv => ((hv.trans (commit_retains hcommit)).trans (ih _ _)).trans (announce_retains _ _)
      have hlisten : ∀ stream name, Retains w ((w.log (.event l.name e)).listen stream name none) :=
        fun stream name => hlog.trans (listen_retains _ stream name none)
      rcases another with _ | ⟨stream, name⟩ <;> rcases withdrawn with _ | withdrawn <;> rcases language with _ | s
      all_goals dsimp only
      all_goals try split
      all_goals first
        | exact hlog
        | exact hlisten _ _
        | exact hlog.trans (unlisten_retains _ _)
        | exact (hlisten _ _).trans (unlisten_retains _ _)
        | exact hupdate ‹_› hlog
        | exact hupdate ‹_› (hlisten _ _)
        | exact hupdate ‹_› (hlog.trans (unlisten_retains _ _))
        | exact hupdate ‹_› ((hlisten _ _).trans (unlisten_retains _ _))

theorem fire_retains (w : World) (e : BusEvent) : Retains w (w.fire e) := deliver_retains _ w e

theorem setContext_retains {extras : Extras} {fields : Changes} {context : Context}
    (h : w.setContext extras fields = .ok (v, context)) : Retains w v := by
  unfold setContext at h
  rcases hc : w.commit extras fields with f | ⟨w', update⟩
  · rw [hc] at h; cases h
  · rw [hc] at h
    cases h
    exact ((commit_retains hc).trans (fire_retains _ _)).trans (announce_retains _ _)

/-! ### The end of an operation -/

variable {op : Nat} {assistant : Option AssistantRecord} {outcome : Except Fault Result}

theorem modify_retains (w : World) (op : Nat) {f : Operation → Operation}
    (hf : ∀ o, (f o).stage = o.stage ∨ (f o).WaitsBelow w.told) : Retains w (w.modifyOperation op f) := by
  refine .of_operations rfl rfl rfl rfl fun o ho => ?_
  obtain ⟨i, hi⟩ := List.mem_iff_getElem?.mp ho
  have hi : (w.operations.modify op f)[i]? = some o := hi
  rw [List.getElem?_modify, Option.map_eq_map, Option.map_eq_some_iff] at hi
  obtain ⟨o', ho', rfl⟩ := hi
  have hmem := List.mem_of_getElem? ho'
  split
  · exact (hf o').imp (fun hstage => ⟨o', hmem, hstage.symm⟩) id
  · exact .inl ⟨o', hmem, rfl⟩

/-- An operation is at a stage at which it waits for no hook. -/
theorem setStage_retains (w : World) (op : Nat) {stage : Stage}
    (hstage : ∀ telling queue outcome, stage ≠ .relaying telling queue outcome) : Retains w (w.setStage op stage) :=
  modify_retains w op fun _ => .inr fun telling queue outcome h => absurd h (hstage telling queue outcome)

theorem complete_retains (w : World) (op : Nat) (answer : Except Fault Answer) : Retains w (w.complete op answer) :=
  setStage_retains w op nofun

theorem conclude_retains (w : World) (op : Nat) (assistant : Option AssistantRecord) (outcome : Except Fault Result) :
    Retains w (w.conclude op assistant outcome) := by
  obtain ⟨-, h⟩ | ⟨a, -, -, h⟩ := w.conclude_cases op assistant outcome
  · rw [h]
    exact complete_retains w op _
  · rw [h]
    exact (fire_retains w _).trans (complete_retains _ op _)

theorem relay_retains (w : World) (op : Nat) (assistant : Option AssistantRecord) (outcome : Except Fault Result)
    (queue : List Hook) : Retains w (w.relay op assistant outcome queue) := by
  induction queue generalizing w with
  | nil => exact conclude_retains w op assistant outcome
  | cons hook rest ih =>
    rw [relay_cons]
    split
    · exact conclude_retains w op assistant outcome
    · split
      · exact (log_retains w _).trans (ih _)
      · refine (tell_retains w hook _).trans (modify_retains _ op fun o => .inr fun telling queue outcome h => ?_)
        cases h
        exact Nat.lt_succ_self w.told

theorem countFailure_retains (w : World) (record : RequestRecord) (f : Fault) : Retains w (w.countFailure record f) :=
  have hcounted : Retains w { w with service := { w.service with errors := w.service.errors + 1 } } :=
    .of_same rfl rfl rfl rfl rfl rfl rfl
  hcounted.trans (fire_retains _ _)

theorem decide_retains (w : World) (op : Nat) (assistant : Option AssistantRecord) (record : RequestRecord)
    (outcome : Except Fault Result) : Retains w (w.decide op assistant record outcome) := by
  cases outcome with
  | error f => exact (countFailure_retains w record f).trans (relay_retains _ op assistant _ _)
  | ok r =>
    have hcounted : Retains w { w with service := { w.service with
        successes := w.service.successes + 1, busy := w.service.busy + (w.now - record.startedAt) } } :=
      .of_same rfl rfl rfl rfl rfl rfl rfl
    exact (hcounted.trans (fire_retains _ _)).trans (relay_retains _ op assistant _ _)

/-! ### Operations -/

theorem clock_retains (w : World) {clock : Clockwork} (hproviders : clock.providers = w.clock.providers) :
    Retains w { w with clock } := .of_same hproviders rfl rfl rfl rfl rfl rfl

theorem launched_retains (w : World) (op : Nat) {clock : Clockwork} (hproviders : clock.providers = w.clock.providers)
    (flight : Flight) : Retains w ({ w with clock }.setStage op (.flying flight)) :=
  (clock_retains w hproviders).trans (setStage_retains _ op fun _ _ _ h => by cases h)

/-- One operation more, which waits for no hook. -/
theorem appended_retains (w : World) {o : Operation}
    (ho : ∀ telling queue outcome, o.stage ≠ .relaying telling queue outcome)
    (assistantIds : RequestIds) : Retains w { w with operations := w.operations ++ [o], assistantIds } := by
  refine .of_operations rfl rfl rfl rfl fun o' ho' => ?_
  rcases List.mem_append.mp ho' with hold | hnew
  · exact .inl ⟨o', hold, rfl⟩
  · rw [List.mem_singleton.mp hnew]
    exact .inr fun telling queue outcome h => absurd h (ho telling queue outcome)

theorem request_retains (w : World) (op : Nat) (assistant : Option AssistantRecord) (token : Token) (operation : String)
    (kind : Capability) (payload : Payload) (context : Option Context) :
    Retains w (w.request op assistant token operation kind payload context) := by
  have hnew : Retains w (w.newRequest operation kind).1 := .of_same rfl rfl rfl rfl rfl rfl rfl
  have hasked : Retains w (w.asked op operation kind) := hnew.trans (modify_retains _ op fun _ => .inl rfl)
  cases h : FanOut.invited w.service.ledger.registry kind (w.isCancelled token) with
  | error f =>
    rw [request_refused h]
    exact hasked.trans (decide_retains _ op assistant _ _)
  | ok ps =>
    rw [request_launched h]
    refine hasked.trans (launched_retains _ op ?_ _)
    rfl

theorem send_retains (w : World) (op : Nat) (assistant : Option AssistantRecord) (token : Token) (context : Context)
    (ask : Ask) : Retains w (w.send op assistant token context ask) := by
  cases ask with
  | context => exact complete_retains w op _
  | chat message => exact request_retains w op assistant token _ _ _ _
  | edit path range instruction options => exact request_retains w op assistant token _ _ _ _

theorem prepare_retains (w : World) (op : Nat) (assistant : Option AssistantRecord) (token : Token) (extras : Extras)
    (ask : Ask) : Retains w (w.prepare op assistant token extras ask) := by
  obtain ⟨f, -, h⟩ | ⟨context, reply, -, h⟩ | ⟨context, h⟩ := w.prepare_cases op assistant token extras ask
  · rw [h]
    exact conclude_retains w op assistant _
  · rw [h]
    have hspawned : Retains w { w with clock := (w.clock.spawn .none (.resolve reply)).1 } := clock_retains w rfl
    exact hspawned.trans (setStage_retains _ op fun _ _ _ h => by cases h)
  · rw [h]
    exact send_retains w op assistant token _ ask

theorem begin_retains (w : World) (order : Order) (token : Token) : Retains w (w.begin order token).1 := by
  have hentered : Retains w (w.entered token) := appended_retains w (fun _ _ _ h => by cases h) w.assistantIds
  cases order with
  | bare kind payload context =>
    cases h : FanOut.invited w.service.ledger.registry kind (w.isCancelled token) with
    | error f =>
      rw [begin_bare_refused h]
      exact hentered.trans (complete_retains _ _ _)
    | ok ps =>
      rw [begin_bare_launched h]
      refine hentered.trans (launched_retains _ _ ?_ _)
      rfl
  | service operation kind payload context =>
    exact hentered.trans (request_retains _ _ none token operation kind payload context)
  | assistant a =>
    have hassigned : Retains w (w.assigned token a) := appended_retains w (fun _ _ _ h => by cases h) _
    rw [begin_assistant]
    exact hassigned.trans (prepare_retains _ _ _ token a.extras a.ask)
  | context extras => exact hentered.trans (prepare_retains _ _ none token extras .context)

theorem resume_retains {o : Operation} (h : w.resume op o = some v) : Retains w v := by
  cases resume_resumes h with
  | cutShort _ _ => exact conclude_retains w op _ _
  | sends _ => exact send_retains w op _ _ _ _
  | lands _ _ _ => exact complete_retains w op _
  | decides _ _ _ => exact decide_retains w op _ _ _
  | relays _ => exact relay_retains w op _ _ _

/-- Aborting an operation may stop a task, or take the hook off that is told of its outcome; nothing else is touched. -/
theorem abort_retains (w : World) (op : Nat) :
    ∃ clock tellings, Retains { w with clock, tellings } (w.abort op) ∧ clock.providers = w.clock.providers ∧
      ∀ t ∈ tellings, t ∈ w.tellings := by
  have hsame : ∀ {v : World}, Retains w v →
      ∃ clock tellings, Retains { w with clock, tellings } v ∧ clock.providers = w.clock.providers ∧
        ∀ t ∈ tellings, t ∈ w.tellings :=
    fun h => ⟨w.clock, w.tellings, h, rfl, fun _ ht => ht⟩
  have habort := w.abort_aborts op
  generalize w.abort op = v at habort ⊢
  cases habort with
  | idle _ => exact hsame (.refl w)
  | @resolving o _ _ task _ _ => exact ⟨w.clock.kill task, w.tellings, conclude_retains _ op _ _, rfl, fun _ ht => ht⟩
  | flying _ _ _ => exact hsame (complete_retains w op _)
  | requesting _ _ _ =>
    exact hsame (((countFailure_retains w _ _).trans (announce_retains _ _)).trans (conclude_retains _ op _ _))
  | relaying _ _ => exact ⟨w.clock, _, conclude_retains _ op _ _, rfl, fun _ ht => List.mem_of_mem_filter ht⟩

end World

end Orchestra
