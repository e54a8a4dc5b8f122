import Orchestra.Proofs.Accounting.Accounts
import Orchestra.Proofs.Events.Silence

/-!
# Orchestra.Proofs.Events.Mirroring — hooks are told again of what answers requests to the service

Where a request is decided, listeners are told first and hooks right afterwards, of the same (`decide_speaks`); nowhere
else is either told of a request, as long as no operation is aborted.  So hooks have been told, at every point of a run and
in the same order, exactly of the events that answer requests to the service (`Scenario.Service.run_mirrors`).  What the
assistant tells listeners hooks are never told of.
-/

namespace Orchestra

/-- No hook that is still to be told in this stage is told of an answer. -/
def Stage.Discreet : Stage → Prop
  | .relaying _ queue _ => ∀ hook ∈ queue, hook.event? = none
  | _ => True

namespace World

open Books

variable {u v w : World} {events repeated events' repeated' : List BusEvent} {op : Nat}
  {assistant : Option AssistantRecord} {outcome : Except Fault Result}

/-- No answer waits to be told to a hook, and every answer is the service's or the assistant's. -/
structure Orderly (w : World) : Prop where
  tellings : ∀ t ∈ w.tellings, t.Discreet
  queues : ∀ o ∈ w.operations, o.stage.Discreet
  known : ∀ e ∈ w.answers, e.ofService = true ∨ e.ofAssistant = true

/-- What was said between two worlds: these events answered requests to the service, and hooks were told of those. -/
structure Speaks (events repeated : List BusEvent) (w v : World) : Prop where
  requests : v.requestEvents = w.requestEvents ++ events
  repeated : v.repeated = w.repeated ++ repeated
  hooks : v.service.hooks = w.service.hooks
  orderly : w.Orderly → v.Orderly

theorem Speaks.trans (h : Speaks events repeated w v) (h' : Speaks events' repeated' v u) :
    Speaks (events ++ events') (repeated ++ repeated') w u := by
  refine ⟨?_, ?_, h'.hooks.trans h.hooks, h'.orderly ∘ h.orderly⟩
  · rw [h'.requests, h.requests, List.append_assoc]
  · rw [h'.repeated, h.repeated, List.append_assoc]

/-- What changes neither what was said nor what is to be said, but for operations whose stage is discreet. -/
theorem speaks_of_same (hpublished : v.published = w.published) (hrepeated : v.repeated = w.repeated)
    (hhooks : v.service.hooks = w.service.hooks) (htellings : v.tellings = w.tellings)
    (hops : ∀ o ∈ v.operations, (∃ old ∈ w.operations, old.stage = o.stage) ∨ o.stage.Discreet) :
    Speaks [] [] w v := by
  refine ⟨?_, ?_, hhooks, fun h => ⟨htellings ▸ h.tellings, fun o ho => ?_, ?_⟩⟩
  · rw [requestEvents, hpublished, List.append_nil]; rfl
  · rw [hrepeated, List.append_nil]
  · obtain ⟨old, hold, hstage⟩ | hdiscreet := hops o ho
    · exact hstage ▸ h.queues old hold
    · exact hdiscreet
  · rw [answers, hpublished]
    exact h.known

theorem speaks_of_clock {clock : Clockwork} (hjournal : ∃ more, clock.journal = more ++ w.clock.journal ∧
    ∀ e ∈ more, e.repeats? = none) : Speaks [] [] w { w with clock } := by
  obtain ⟨more, hmore, hnone⟩ := hjournal
  exact speaks_of_same rfl (repeated_of_journal hmore hnone) rfl rfl fun o ho => .inl ⟨o, ho, rfl⟩

theorem speaks_refl (w : World) : Speaks [] [] w w :=
  speaks_of_same rfl rfl rfl rfl fun o ho => .inl ⟨o, ho, rfl⟩

theorem Silent.speaks (h : Silent w v) : Speaks [] [] w v := by
  refine ⟨?_, ?_, h.hooks, fun hw => ⟨fun t ht => ?_, ?_, ?_⟩⟩
  · rw [List.append_nil]
    exact congrArg Books.events h.books
  · rw [h.repeated, List.append_nil]
  · obtain hdiscreet | ht := h.tellings t ht
    · exact hdiscreet
    · exact hw.tellings t ht
  · have hops : v.operations = w.operations := congrArg Books.operations h.books
    rw [hops]
    exact hw.queues
  · rw [h.answers]
    exact hw.known

/-! ### Telling listeners and hooks -/

/-- Listeners are told of something that answers the service or the assistant. -/
theorem fire_speaks (w : World) {e : BusEvent} (hknown : e.ofService = true ∨ e.ofAssistant = true) :
    Speaks ([e].filter (·.ofService)) [] w (w.fire e) := by
  have hpublished : Speaks ([e].filter (·.ofService)) [] w { w with published := w.published ++ [e] } := by
    refine ⟨List.filter_append .., (List.append_nil _).symm, rfl, fun h => ⟨h.tellings, h.queues, fun e' he => ?_⟩⟩
    obtain ⟨he, hid⟩ := List.mem_filter.mp he
    rcases List.mem_append.mp he with he | he
    · exact h.known e' (List.mem_filter.mpr ⟨he, hid⟩)
    · exact List.mem_singleton.mp he ▸ hknown
  have htrans := hpublished.trans (fire_silent w e).speaks
  rwa [List.append_nil, List.append_nil] at htrans

theorem log_speaks (w : World) (hook : Hook) : Speaks [] hook.event?.toList w (w.log (.hook hook)) := by
  refine ⟨(List.append_nil _).symm, ?_, rfl, fun h => ⟨h.tellings, h.queues, h.known⟩⟩
  show (Entry.hook hook :: w.clock.journal).reverse.filterMap Entry.repeats? = w.repeated ++ hook.event?.toList
  rw [List.reverse_cons, List.filterMap_append]
  congr 1

/-- A hook that an operation waits for is told at once. -/
theorem tell_speaks (w : World) (hook : Hook) (delay : Nat) : Speaks [] hook.event?.toList w (w.tell hook delay).1 := by
  have hlog := w.log_speaks hook
  refine ⟨hlog.requests, hlog.repeated, rfl, fun h => ⟨?_, h.queues, h.known⟩⟩
  exact List.forall_mem_append.mpr ⟨h.tellings, List.forall_mem_singleton.mpr (.inl rfl)⟩

theorem modify_speaks (w : World) (op : Nat) {f : Operation → Operation}
    (hf : ∀ o, (f o).stage = o.stage ∨ (f o).stage.Discreet) : Speaks [] [] w (w.modifyOperation op f) := by
  refine speaks_of_same rfl rfl rfl rfl fun o ho => ?_
  obtain ⟨i, hi⟩ := List.mem_iff_getElem?.mp ho
  by_cases hop : op = i
  · subst hop
    have hi : (w.operations.modify op f)[op]? = some o := hi
    rw [List.getElem?_modify_eq, Option.map_eq_map, Option.map_eq_some_iff] at hi
    obtain ⟨old, hold, rfl⟩ := hi
    exact (hf old).imp (fun hstage => ⟨old, List.mem_of_getElem? hold, hstage.symm⟩) id
  · have hi : (w.operations.modify op f)[i]? = some o := hi
    rw [List.getElem?_modify_ne _ _ hop] at hi
    exact .inl ⟨o, List.mem_of_getElem? hi, rfl⟩

theorem setStage_speaks (w : World) (op : Nat) (stage : Stage) (h : stage.Discreet) :
    Speaks [] [] w (w.setStage op stage) := w.modify_speaks op fun _ => .inr h

/-! ### The end of an operation -/

/-- What the assistant tells listeners hooks are not told of. -/
theorem conclude_speaks (ha : Foreign assistant) (w : World) (op : Nat) (outcome : Except Fault Result) :
    Speaks [] [] w (w.conclude op assistant outcome) := by
  have hcomplete : ∀ (w : World) answer, Speaks [] [] w (w.complete op answer) :=
    fun w answer => setStage_speaks w op (.done answer w.now) trivial
  obtain ⟨-, h⟩ | ⟨a, rfl, -, h⟩ := w.conclude_cases op assistant outcome
  · rw [h]
    exact hcomplete w _
  · have hof : ∀ source, (a.event (answerTo (some a) outcome) (w.now - a.startedAt)).id?.any (·.source == source) =
        (RequestIds.assistant.source == source) := by
      intro source
      rw [AssistantRecord.event_id?, Option.any_some, ha a rfl]
    have hservice : ¬ (a.event (answerTo (some a) outcome) (w.now - a.startedAt)).ofService = true := by
      rw [BusEvent.ofService, hof]
      decide
    have hassistant : (a.event (answerTo (some a) outcome) (w.now - a.startedAt)).ofAssistant = true := by
      rw [BusEvent.ofAssistant, hof]
      decide
    have hfire := w.fire_speaks (.inr hassistant)
    rw [List.filter_cons_of_neg hservice, List.filter_nil] at hfire
    rw [h]
    exact hfire.trans (hcomplete _ _)

/-- Of the hooks that are told of an outcome only the first may be told of an answer, so that none waits. -/
theorem relay_speaks (ha : Foreign assistant) (hhooks : w.service.hooks ≠ none) (op : Nat) (outcome : Except Fault Result)
    (queue : List Hook) (hrest : ∀ hook ∈ queue.tail, hook.event? = none) :
    Speaks [] (queue.filterMap Hook.event?) w (w.relay op assistant outcome queue) := by
  induction queue generalizing w with
  | nil => exact conclude_speaks ha w op outcome
  | cons hook rest ih =>
    have hnone : rest.filterMap Hook.event? = [] := List.filterMap_eq_nil_iff.mpr hrest
    have hqueue : (hook :: rest).filterMap Hook.event? = hook.event?.toList ++ [] := by
      rw [List.filterMap_cons, hnone]
      cases hook.event? <;> rfl
    rw [relay_cons, hqueue]
    split
    · next h => exact absurd h hhooks
    · split
      · have hrelay := ih (w := w.log (.hook hook)) hhooks fun hook hmem => hrest hook (List.mem_of_mem_tail hmem)
        rw [hnone] at hrelay
        exact (log_speaks w hook).trans hrelay
      · next hooks _ _ =>
        exact (tell_speaks w hook (hooks.delay w.told hook)).trans
          (setStage_speaks _ op (.relaying w.told rest outcome) hrest)

/-- **A decision** is told to listeners and to hooks, in one go. -/
theorem decide_speaks (ha : Foreign assistant) {record : RequestRecord}
    (hsource : record.id.source = RequestIds.service.source) (hhooks : w.service.hooks ≠ none) (op : Nat)
    (outcome : Except Fault Result) :
    ∃ e, Speaks [e] [e] w (w.decide op assistant record outcome) := by
  refine ⟨record.event outcome (w.now - record.startedAt), ?_⟩
  have hof : (record.event outcome (w.now - record.startedAt)).ofService = true := by
    rw [BusEvent.ofService, RequestRecord.event_id?, Option.any_some, hsource]
    exact beq_self_eq_true _
  have hcounted : ∀ service : Service, service.hooks = w.service.hooks →
      Speaks [record.event outcome (w.now - record.startedAt)] [] w
        ({ w with service }.fire (record.event outcome (w.now - record.startedAt))) := by
    intro service hservice
    have hsame : Speaks [] [] w { w with service } :=
      speaks_of_same rfl rfl hservice rfl fun o ho => .inl ⟨o, ho, rfl⟩
    have hfire := ({ w with service } : World).fire_speaks (.inl hof)
    rw [List.filter_cons_of_pos hof, List.filter_nil] at hfire
    exact hsame.trans hfire
  cases outcome with
  | ok r =>
    have hcount : Speaks _ [] w (w.countSuccess record r) := hcounted _ rfl
    have hrest : ∀ hook ∈ (w.successHooks record r).tail, hook.event? = none := by
      unfold successHooks
      split
      · exact List.forall_mem_singleton.mpr rfl
      · exact List.forall_mem_nil _
    have hrelay := relay_speaks ha (by rw [hcount.hooks]; exact hhooks) op (w.handed r) _ hrest
    have hqueue : (w.successHooks record r).filterMap Hook.event? =
        [record.event (.ok r) (w.now - record.startedAt)] := by
      unfold successHooks
      split <;> rfl
    rw [hqueue] at hrelay
    exact hcount.trans hrelay
  | error f =>
    have hcount : Speaks _ [] w (w.countFailure record f) := hcounted _ rfl
    exact hcount.trans (relay_speaks ha (by rw [hcount.hooks]; exact hhooks) op (.error f)
      [.error record f (w.now - record.startedAt)] (List.forall_mem_nil _))

/-! ### The beginning of an operation -/

theorem launched_speaks (w : World) (op : Nat) (kind : Capability) (payload : Payload) (context : Context) (token : Token)
    (ps : List ProviderRef) (flight : Flight) :
    Speaks [] [] w ({ w with clock := w.clock.calling kind payload context token ps }.setStage op (.flying flight)) := by
  have hcalled : Speaks [] [] w { w with clock := w.clock.calling kind payload context token ps } :=
    speaks_of_clock ⟨[], rfl, List.forall_mem_nil _⟩
  exact hcalled.trans (setStage_speaks _ op _ trivial)

theorem request_speaks (ha : Foreign assistant) (hsource : w.service.ids.source = RequestIds.service.source)
    (hhooks : w.service.hooks ≠ none) (op : Nat) (token : Token) (operation : String) (kind : Capability)
    (payload : Payload) (context : Option Context) :
    ∃ es, Speaks es es w (w.request op assistant token operation kind payload context) := by
  have hnew : Speaks [] [] w (w.newRequest operation kind).1 :=
    speaks_of_same rfl rfl rfl rfl fun o ho => .inl ⟨o, ho, rfl⟩
  have hasked : Speaks [] [] w (w.asked op operation kind) := hnew.trans (modify_speaks _ op fun _ => .inl rfl)
  cases h : FanOut.invited w.service.ledger.registry kind (w.isCancelled token) with
  | error f =>
    have hrecord : (w.newRequest operation kind).2.id.source = RequestIds.service.source := hsource
    obtain ⟨e, hdecide⟩ := decide_speaks ha hrecord (by rw [hasked.hooks]; exact hhooks) op (.error f)
    rw [request_refused h]
    exact ⟨[e], hasked.trans hdecide⟩
  | ok ps =>
    rw [request_launched h]
    exact ⟨[], hasked.trans (launched_speaks _ op kind payload _ token ps _)⟩

theorem send_speaks (ha : Foreign assistant) (hsource : w.service.ids.source = RequestIds.service.source)
    (hhooks : w.service.hooks ≠ none) (op : Nat) (token : Token) (context : Context) (ask : Ask) :
    ∃ es, Speaks es es w (w.send op assistant token context ask) := by
  cases ask with
  | context => exact ⟨[], setStage_speaks w op _ trivial⟩
  | chat message => exact request_speaks ha hsource hhooks op token _ _ _ _
  | edit path range instruction options => exact request_speaks ha hsource hhooks op token _ _ _ _

theorem prepare_speaks (ha : Foreign assistant) (hsource : w.service.ids.source = RequestIds.service.source)
    (hhooks : w.service.hooks ≠ none) (op : Nat) (token : Token) (extras : Extras) (ask : Ask) :
    ∃ es, Speaks es es w (w.prepare op assistant token extras ask) := by
  obtain ⟨f, -, h⟩ | ⟨context, reply, -, h⟩ | ⟨context, h⟩ := w.prepare_cases op assistant token extras ask
  · rw [h]
    exact ⟨[], conclude_speaks ha w op _⟩
  · have hspawned : Speaks [] [] w { w with clock := (w.clock.spawn .none (.resolve reply)).1 } :=
      speaks_of_clock ⟨[], rfl, List.forall_mem_nil _⟩
    rw [h]
    exact ⟨[], hspawned.trans (setStage_speaks _ op _ trivial)⟩
  · rw [h]
    exact send_speaks ha hsource hhooks op token context ask

/-- An operation more, of which nothing is told yet. -/
theorem append_speaks {o : Operation} (hops : v.operations = w.operations ++ [o]) (hstage : o.stage.Discreet)
    (hpublished : v.published = w.published) (hrepeated : v.repeated = w.repeated)
    (hhooks : v.service.hooks = w.service.hooks) (htellings : v.tellings = w.tellings) : Speaks [] [] w v := by
  refine speaks_of_same hpublished hrepeated hhooks htellings fun o' ho => ?_
  rw [hops] at ho
  rcases List.mem_append.mp ho with ho | ho
  · exact .inl ⟨o', ho, rfl⟩
  · rw [List.mem_singleton.mp ho]
    exact .inr hstage

theorem begin_speaks (hb : w.books.Kept) (hhooks : w.service.hooks ≠ none) (order : Order) (token : Token) :
    ∃ es, Speaks es es w (w.begin order token).1 := by
  have hforeign : Foreign none := fun _ h => by cases h
  have hentered : Speaks [] [] w (w.entered token) := append_speaks rfl trivial rfl rfl rfl rfl
  have hthen : ∀ {v : World}, (∃ es, Speaks es es (w.entered token) v) → ∃ es, Speaks es es w v := by
    rintro v ⟨es, hes⟩
    exact ⟨es, hentered.trans hes⟩
  cases order with
  | bare kind payload context =>
    refine hthen ⟨[], ?_⟩
    cases h : FanOut.invited w.service.ledger.registry kind (w.isCancelled token) with
    | error f =>
      rw [begin_bare_refused h]
      exact setStage_speaks _ _ _ trivial
    | ok ps =>
      rw [begin_bare_launched h]
      exact launched_speaks (w.entered token) _ kind payload context token ps _
  | service operation kind payload context =>
    exact hthen (request_speaks (w := w.entered token) hforeign hb.source hhooks _ token operation kind payload context)
  | assistant a =>
    have hassigned : Speaks [] [] w (w.assigned token a) := append_speaks rfl trivial rfl rfl rfl rfl
    have hforeign : Foreign (some (w.recordOf a)) := fun _ h => by cases h; exact hb.assistantSource
    obtain ⟨es, hes⟩ := prepare_speaks (w := w.assigned token a) hforeign hb.source hhooks w.operations.length token
      a.extras a.ask
    rw [begin_assistant]
    exact ⟨es, hassigned.trans hes⟩
  | context extras =>
    exact hthen (prepare_speaks (w := w.entered token) hforeign hb.source hhooks _ token extras .context)

/-! ### Occurrences -/

/-- **An operation gets on.** -/
theorem resume_speaks {o : Operation} (hb : w.books.Kept) (hw : w.Orderly) (hhooks : w.service.hooks ≠ none)
    (ho : o ∈ w.operations) (h : w.resume op o = some v) : ∃ es, Speaks es es w v := by
  have ha := hb.foreign o ho
  cases resume_resumes h with
  | cutShort _ _ => exact ⟨[], conclude_speaks ha w op _⟩
  | sends _ => exact send_speaks ha hb.source hhooks op _ _ _
  | lands _ _ _ => exact ⟨[], setStage_speaks w op _ trivial⟩
  | decides _ _ request =>
    obtain ⟨e, hdecide⟩ := decide_speaks ha (hb.issued _ (List.mem_filterMap.mpr ⟨o, ho, request⟩)).1 hhooks op _
    exact ⟨[e], hdecide⟩
  | @relays telling queue outcome stage =>
    have hqueue : ∀ hook ∈ queue, hook.event? = none := by
      have hdiscreet := hw.queues o ho
      rw [stage] at hdiscreet
      exact hdiscreet
    have hrelay := relay_speaks ha hhooks op outcome queue fun hook hmem => hqueue hook (List.mem_of_mem_tail hmem)
    rw [List.filterMap_eq_nil_iff.mpr hqueue] at hrelay
    exact ⟨[], hrelay⟩

/-- **Whatever occurs**, other than that an operation is aborted or the clock moves: hooks are told of the answers that
listeners are told of. -/
theorem occur_speaks (hb : w.books.Kept) (hw : w.Orderly) (hhooks : w.service.hooks ≠ none) {x : Occurrence}
    (habort : ∀ op, x ≠ .abort op) (hclock : ∀ c, x ≠ .clock c) : ∃ es, Speaks es es w (w.occur x) := by
  cases x with
  | begin order token => exact begin_speaks hb hhooks order token
  | resume op =>
    simp only [occur]
    cases ho : w.operations[op]? with
    | none => exact ⟨[], speaks_refl w⟩
    | some o =>
      rw [Option.bind_some]
      cases hr : w.resume op o with
      | none => exact ⟨[], speaks_refl w⟩
      | some v => exact resume_speaks hb hw hhooks (List.mem_of_getElem? ho) hr
  | abort op => exact absurd rfl (habort op)
  | clock c => exact absurd rfl (hclock c)
  | tell => exact ⟨[], (tellAll_silent hw.tellings).speaks⟩
  | due | deed _ | register _ _ | dispose _ | onDispose _ _ | listen _ _ _ | unlisten _ | setContext _ _ | commit _ _
  | clearContext | close => exact ⟨[], (occur_silent rfl).speaks⟩

/-! ### Runs -/

/-- What is taken of the journal when something happens. -/
def taking (w : World) : Happening → List Entry
  | .read => w.takeJournal.2
  | _ => []

/-- What is taken of the journal while all this happens, in order. -/
def taken (w : World) : List Happening → List Entry
  | [] => []
  | x :: xs => w.taking x ++ (w.happen x).taken xs

/-- Everything that can be seen from outside while all this happens, in order: what was taken of the journal, and what is
in it at the end. -/
def seen (w : World) (xs : List Happening) : List Entry := w.taken xs ++ (w.unfold xs).takeJournal.2

theorem taken_append (w : World) (xs ys : List Happening) :
    w.taken (xs ++ ys) = w.taken xs ++ (w.unfold xs).taken ys := by
  induction xs generalizing w with
  | nil => rfl
  | cons x xs ih =>
    rw [List.cons_append, taken, ih, taken, List.append_assoc]
    rfl

theorem taken_concat (w : World) (xs : List Happening) (x : Happening) :
    w.taken (xs ++ [x]) = w.taken xs ++ (w.unfold xs).taking x := by
  rw [taken_append, taken, taken, List.append_nil]

theorem seen_repeats (w : World) (xs : List Happening) :
    (w.seen xs).filterMap Entry.repeats? = (w.taken xs).filterMap Entry.repeats? ++ (w.unfold xs).repeated :=
  List.filterMap_append

theorem repeats?_of_isCall {e : Entry} (h : e.isCall = true) : e.repeats? = none := by
  cases e with
  | call _ _ _ _ _ _ | complete _ _ _ => rfl
  | dispose _ | callback _ _ _ | event _ _ | hook _ | hookDone _ => cases h

/-- **Whatever happens**, other than that an operation is aborted or the journal is taken. -/
theorem happen_speaks (hb : w.books.Kept) (hw : w.Orderly) (hhooks : w.service.hooks ≠ none) {x : Happening}
    (habort : ∀ op, x ≠ .occurs (.abort op)) (hread : x ≠ .read) : ∃ es, Speaks es es w (w.happen x) := by
  have hsame : ∀ {clock : Clockwork}, clock.journal = w.clock.journal → ∃ es, Speaks es es w { w with clock } :=
    fun h => ⟨[], speaks_of_clock ⟨[], h, List.forall_mem_nil _⟩⟩
  cases x with
  | occurs x =>
    simp only [happen]
    split
    · next hmay =>
      exact occur_speaks hb hw hhooks (fun op h => habort op (h ▸ rfl)) fun c h => by rw [h] at hmay; cases hmay
    · exact ⟨[], speaks_refl w⟩
  | turn =>
    rw [happen]
    cases hstep : w.clock.step with
    | none => exact hsame rfl
    | some clock =>
      obtain ⟨t, -, rfl⟩ := Clockwork.step_eq_some.mp hstep
      obtain ⟨more, hmore, hcalls⟩ := Clockwork.goOn_journal t
      exact ⟨[], speaks_of_clock ⟨more, hmore, fun e he => repeats?_of_isCall (hcalls e he)⟩⟩
  | pass tick =>
    simp only [happen]
    split
    · exact hsame rfl
    · exact ⟨[], speaks_refl w⟩
  | prepare _ | timer _ | provide _ => exact hsame rfl
  | disposeDirectly provider =>
    obtain ⟨more, hmore, hdisposed⟩ := (Clockwork.touched_disposeProvider w.clock provider).journal
    refine ⟨[], speaks_of_clock ⟨more, hmore, fun e he => ?_⟩⟩
    obtain ⟨name, rfl⟩ := hdisposed e he
    rfl
  | read => exact absurd rfl hread

/-- What holds at every point of a run in which no operation is aborted. -/
structure Mirrored (w : World) (xs : List Happening) : Prop where
  hooks : (w.unfold xs).service.hooks ≠ none
  orderly : (w.unfold xs).Orderly
  repeats : (w.seen xs).filterMap Entry.repeats? = (w.unfold xs).requestEvents

/-- **One more happening.** -/
theorem Mirrored.concat {xs : List Happening} {x : Happening} (h : w.Mirrored xs) (hb : (w.unfold xs).books.Kept)
    (habort : ∀ op, x ≠ .occurs (.abort op)) : w.Mirrored (xs ++ [x]) := by
  have hrepeats := h.repeats
  rw [seen_repeats] at hrepeats
  by_cases hread : x = .read
  · -- what was in the journal has been taken, so that nothing is lost
    subst hread
    refine ⟨?_, ?_, ?_⟩
    · rw [unfold_concat]; exact h.hooks
    · rw [unfold_concat]; exact ⟨h.orderly.tellings, h.orderly.queues, h.orderly.known⟩
    · rw [seen_repeats, taken_concat, List.filterMap_append, unfold_concat]
      exact (List.append_nil _).trans hrepeats
  · obtain ⟨es, hspeaks⟩ := happen_speaks hb h.orderly h.hooks habort hread
    have htaking : (w.unfold xs).taking x = [] := by
      cases x with
      | read => exact absurd rfl hread
      | occurs _ | turn | pass _ | prepare _ | timer _ | provide _ | disposeDirectly _ => rfl
    refine ⟨?_, ?_, ?_⟩
    · rw [unfold_concat, hspeaks.hooks]; exact h.hooks
    · rw [unfold_concat]; exact hspeaks.orderly h.orderly
    · rw [seen_repeats, taken_concat, htaking, List.append_nil, unfold_concat, hspeaks.repeated, hspeaks.requests,
        ← List.append_assoc, hrepeats]

/-- **A whole run** in which no operation is aborted. -/
theorem unfold_mirrored (hb : w.books.Balanced) (hw : w.Mirrored []) {xs : List Happening}
    (habort : ∀ op, .occurs (.abort op) ∉ xs) : w.Mirrored xs := by
  induction xs using List.reverseRecOn with
  | nil => exact hw
  | append_singleton xs x ih =>
    have hbefore := ih fun op hmem => habort op (List.mem_append_left _ hmem)
    exact hbefore.concat (unfold_balanced hb xs).toKept fun op hx => habort op (by rw [hx]; simp)

end World

namespace Scenario.Service

open World

variable {s : Setting} {w : World} {xs : List Happening}

/-- **Hooks mirror the service.**  Where hooks are told at all, and as long as no operation is aborted: whatever happens,
in whatever order, hooks have been told in the same order exactly of what listeners have been told about requests to the
service, with the same ids, outcomes and durations.  Everything else that answers anyone on the bus, and that hooks have
not been told of, is the assistant's. -/
theorem run_mirrors (hw : s.world = .ok w) (hhooks : w.service.hooks ≠ none) (habort : ∀ op, .occurs (.abort op) ∉ xs) :
    (w.seen xs).filterMap Entry.repeats? = (w.unfold xs).requestEvents ∧
      ∀ e ∈ (w.unfold xs).answers, e ∉ (w.unfold xs).requestEvents → e.ofAssistant = true := by
  obtain ⟨hpublished, htellings, hjournal⟩ := world_unspoken hw
  have hops : w.operations = [] := congrArg Books.operations (world_books hw)
  have hnew : w.Mirrored [] := by
    refine ⟨hhooks, ⟨?_, ?_, ?_⟩, ?_⟩
    · rw [unfold_nil, htellings]; exact List.forall_mem_nil _
    · rw [unfold_nil, hops]; exact List.forall_mem_nil _
    · rw [unfold_nil, answers, hpublished]; exact List.forall_mem_nil _
    · rw [seen_repeats, unfold_nil, repeated, hjournal, requestEvents, hpublished]
      rfl
  have hmirrored := unfold_mirrored (world_balanced hw) hnew habort
  refine ⟨hmirrored.repeats, fun e he hnot => ?_⟩
  obtain hservice | hassistant := hmirrored.orderly.known e he
  · exact absurd (List.mem_filter.mpr ⟨List.mem_of_mem_filter he, hservice⟩) hnot
  · exact hassistant

/-- A request fails while its hook takes its time, and another is refused; the journal is taken in between. -/
def overheard : List Happening := [
  .occurs (.register ⟨0, "alpha", [.chat]⟩ none),
  .occurs (.begin (.service "ask" .chat (.text "hello") none) .none),
  .turn,
  .occurs (.resume 0),
  .read,
  .occurs (.begin (.service "spare" .codeCompletion (.text "hello") none) .none),
  .occurs .tell,
  .occurs .close]

theorem run_overheard :
    ∃ w, watched.world = .ok w ∧ w.service.hooks ≠ none ∧
      (w.seen overheard).filterMap Entry.repeats? = (w.unfold overheard).requestEvents ∧
      (w.unfold overheard).requestEvents.filterMap (·.id?) =
        [⟨"ai", 1000000, 0, "0"⟩, ⟨"ai", 1000000, 1, "0"⟩] := by
  have habort : ∀ op, .occurs (.abort op) ∉ overheard := by simp [overheard]
  obtain ⟨hmirrors, -⟩ := run_mirrors (s := watched) rfl nofun habort
  exact ⟨_, rfl, nofun, hmirrors, rfl⟩

/-- A service with a hook that is told in no time. -/
def attentive : Setting := { watched with coordinator := some { hooks := some {}, mounted := .other, refuses := false } }

/-- The assistant is asked something that nobody can answer. -/
def unheard : List Happening := [.occurs (.begin (.assistant (.chat "hello" .nothing)) .none)]

/-- Listeners are told of the failed request and of the failed operation of the assistant, hooks only of the request. -/
theorem run_unheard :
    ∃ w, attentive.world = .ok w ∧ w.service.hooks ≠ none ∧
      (w.unfold unheard).answers.filterMap (·.id?) = [⟨"ai", 1000000, 0, "0"⟩, ⟨"assistant", 1000000, 0, "0"⟩] ∧
      ((w.seen unheard).filterMap Entry.repeats?).filterMap (·.id?) = [⟨"ai", 1000000, 0, "0"⟩] :=
  ⟨_, rfl, nofun, rfl, rfl⟩

end Scenario.Service

end Orchestra
