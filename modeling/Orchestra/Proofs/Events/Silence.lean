import Orchestra.Proofs.Accounting.Balance

/-!
# Orchestra.Proofs.Events.Silence — what answers nobody

A response or an error answers a request to the service or an operation of the assistant, and hooks are told again of what
answers a request.  Most of what occurs says nothing of either kind (`Silent`), and listeners cannot make it do so: of the
events that they cause in turn, none is an answer (`fire_silent`).
-/

namespace Orchestra

/-- The event answers an operation of the assistant: ids of the assistant tell. -/
def BusEvent.ofAssistant (e : BusEvent) : Bool := e.id?.any (·.source == RequestIds.assistant.source)

/-- The event on the bus that a hook is told of again. -/
def Hook.event? : Hook → Option BusEvent
  | .response record result ticks => some (record.event (.ok result) ticks)
  | .error record fault ticks => some (record.event (.error fault) ticks)
  | .debug _ _ | .contextChanged _ => none

/-- The event of which a hook is told again where this is seen. -/
def Entry.repeats? : Entry → Option BusEvent
  | .hook h => h.event?
  | _ => none

/-- The telling has begun, or it is of no answer. -/
def Telling.Discreet (t : Telling) : Prop := t.begun = true ∨ t.hook.event? = none

namespace Clockwork

variable {c c' : Clockwork} {t : Task}

@[simp] theorem finish_journal (c : Clockwork) (t : Task) (last : Finish) : (c.finish t last).journal = c.journal := by
  cases last with
  | provider index reply => rcases reply with f | f | r <;> rfl
  | prepare index reply => rcases reply with f | u <;> rfl
  | model _ _ _ _ | resolve _ | nothing => rfl

/-- Making moves shows nothing. -/
@[simp] theorem play_journal (c : Clockwork) (t : Task) (last : Finish) (moves : List Move) :
    (c.play t last moves).journal = c.journal := by
  induction moves generalizing c last with
  | nil => exact finish_journal c t last
  | cons move rest ih =>
    cases move with
    | pause ticks => rfl
    | park => rfl
    | awaitCancellation =>
      simp only [play]
      split
      · exact ih c last
      · rfl
    | cancel source =>
      refine (ih (c.cancel source) last).trans ?_
      rw [cancel_eq]
    | checkpoint operation =>
      simp only [play]
      split
      · exact finish_journal c t _
      · exact ih c last

/-- What a task shows in a turn is a call, if anything. -/
theorem goOn_journal (t : Task) : ∃ more, (c.goOn t).journal = more ++ c.journal ∧ ∀ e ∈ more, e.isCall = true := by
  have hnone : ∀ {c' : Clockwork}, c'.journal = c.journal →
      ∃ more, c'.journal = more ++ c.journal ∧ ∀ e ∈ more, e.isCall = true :=
    fun h => ⟨[], h, List.forall_mem_nil _⟩
  unfold goOn
  split
  · next start _ =>
    cases start with
    | call index kind payload context =>
      simp only [begin]
      split
      · exact ⟨_, play_journal .., List.forall_mem_singleton.mpr rfl⟩
      · split
        · exact hnone rfl
        · exact ⟨_, play_journal .., List.forall_mem_singleton.mpr rfl⟩
      · exact hnone rfl
    | prepare index =>
      simp only [begin]
      split
      · exact hnone (play_journal ..)
      · exact hnone rfl
    | resolve reply => exact hnone (play_journal ..)
  · exact hnone (play_journal ..)

end Clockwork

namespace World

/-- The events that answer something, in order. -/
def answers (w : World) : List BusEvent := w.published.filter (·.id?.isSome)

/-- The events that hooks were told of again since the journal was last taken, in order. -/
def repeated (w : World) : List BusEvent := w.clock.journal.reverse.filterMap Entry.repeats?

/-- Nothing was answered and no hook told of an answer, no request and no operation has changed, and no answer waits to
be told in the background that did not wait before. -/
structure Silent (w v : World) : Prop where
  books : v.books = w.books
  answers : v.answers = w.answers
  repeated : v.repeated = w.repeated
  hooks : v.service.hooks = w.service.hooks
  tellings : ∀ t ∈ v.tellings, t.Discreet ∨ t ∈ w.tellings

variable {u v w : World}

theorem Silent.refl (w : World) : Silent w w := ⟨rfl, rfl, rfl, rfl, fun _ ht => .inr ht⟩

theorem Silent.trans (h : Silent w v) (h' : Silent v u) : Silent w u := by
  refine ⟨h'.books.trans h.books, h'.answers.trans h.answers, h'.repeated.trans h.repeated, h'.hooks.trans h.hooks,
    fun t ht => ?_⟩
  obtain hdiscreet | ht := h'.tellings t ht
  · exact .inl hdiscreet
  · exact h.tellings t ht

theorem foldl_silent {α : Type} {f : World → α → World} {as : List α} (hf : ∀ w, ∀ a ∈ as, Silent w (f w a))
    (w : World) : Silent w (as.foldl f w) := by
  induction as generalizing w with
  | nil => exact Silent.refl w
  | cons a as ih =>
    exact (hf w a List.mem_cons_self).trans (ih (fun w b hb => hf w b (List.mem_cons_of_mem a hb)) (f w a))

/-! ### Hooks and listeners -/

/-- What is seen is of an answer only if a hook is told of one. -/
theorem repeated_of_journal {more : List Entry} (h : v.clock.journal = more ++ w.clock.journal)
    (hnone : ∀ e ∈ more, e.repeats? = none) : v.repeated = w.repeated := by
  rw [repeated, h, List.reverse_append, List.filterMap_append,
    List.filterMap_eq_nil_iff.mpr fun e he => hnone e (List.mem_reverse.mp he), List.append_nil]
  rfl

theorem silent_log (w : World) {e : Entry} (he : e.repeats? = none) : Silent w (w.log e) := by
  have hjournal : (w.log e).clock.journal = [e] ++ w.clock.journal := rfl
  exact ⟨rfl, rfl, repeated_of_journal hjournal (List.forall_mem_singleton.mpr he), rfl, fun _ ht => .inr ht⟩

theorem silent_announce (w : World) {hook : Hook} (hnone : hook.event? = none) : Silent w (w.announce hook) := by
  refine ⟨announce_books w hook, ?_, ?_, ?_, fun t ht => ?_⟩
  · unfold announce; split <;> rfl
  · unfold announce; split <;> rfl
  · unfold announce; split <;> rfl
  · unfold announce at ht
    split at ht
    · exact .inr ht
    · rcases List.mem_append.mp ht with ht | ht
      · exact .inr ht
      · rw [List.mem_singleton.mp ht]
        exact .inl (.inr hnone)

theorem silent_listen (w : World) (stream : Stream) (name : String) (reaction : Option Reaction) :
    Silent w (w.listen stream name reaction) := ⟨rfl, rfl, rfl, rfl, fun _ ht => .inr ht⟩

theorem silent_unlisten (w : World) (name : String) : Silent w (w.unlisten name) := by
  unfold unlisten
  split
  · exact Silent.refl w
  · exact ⟨rfl, rfl, rfl, rfl, fun _ ht => .inr ht⟩

theorem commit_silent {extras : Extras} {fields : Changes} {update : ContextUpdate}
    (h : w.commit extras fields = .ok (v, update)) : Silent w v := by
  unfold commit at h
  rcases hc : w.service.context.set extras fields with f | ⟨context, changed⟩
  · rw [hc] at h; cases h
  · rw [hc] at h; cases h; exact ⟨rfl, rfl, rfl, rfl, fun _ ht => .inr ht⟩

/-- Giving tellings their turn is silent where none of them is of an answer. -/
theorem tellAll_silent (h : ∀ t ∈ w.tellings, t.Discreet) : Silent w w.tellAll := by
  have hseen : ∀ e ∈ w.tellings.flatMap (·.seen w.now), e.repeats? = none := by
    intro e he
    obtain ⟨t, ht, he⟩ := List.mem_flatMap.mp he
    rcases List.mem_append.mp he with he | he <;> split at he
    · cases he
    · next hbegun =>
      rw [List.mem_singleton.mp he]
      exact (h t ht).resolve_left hbegun
    · rw [List.mem_singleton.mp he]; rfl
    · cases he
  have hsilent := foldl_silent (fun w e he => silent_log w (hseen e he)) w
  refine ⟨w.tellAll_books, hsilent.answers, hsilent.repeated, hsilent.hooks, fun t ht => ?_⟩
  obtain ⟨t₀, -, hafter⟩ := List.mem_filterMap.mp ht
  unfold Telling.after? at hafter
  split at hafter
  · cases hafter
  · cases hafter; exact .inl (.inl rfl)

/-! ### Events -/

theorem deliver_succ_silent {depth : Nat} (hnested : ∀ w update, Silent w (deliver depth w (.context update)))
    (w : World) (e : BusEvent) : Silent { w with published := w.published ++ [e] } (deliver (depth + 1) w e) := by
  rw [deliver]
  refine foldl_silent (fun w l _ => ?_) _
  have hlog : Silent w (w.log (.event l.name e)) := silent_log w rfl
  dsimp only
  split
  · exact hlog
  · exact hlog
  · next another withdrawn language _ =>
    -- listeners come and go, and then perhaps the language is set, which is told in turn
    have hupdate : ∀ {v v' : World} {update : ContextUpdate},
        v.commit .nothing [.language language] = .ok (v', update) → Silent w v →
        Silent w ((deliver depth v' (.context update)).announce (.contextChanged update)) :=
      fun hcommit hv => ((hv.trans (commit_silent hcommit)).trans (hnested _ _)).trans (silent_announce _ rfl)
    have hlisten : ∀ stream name, Silent w ((w.log (.event l.name e)).listen stream name none) :=
      fun stream name => hlog.trans (silent_listen _ stream name none)
    rcases another with _ | ⟨stream, name⟩ <;> rcases withdrawn with _ | withdrawn <;> rcases language with _ | s
    all_goals dsimp only
    all_goals try split
    all_goals first
      | exact hlog
      | exact hlisten _ _
      | exact hlog.trans (silent_unlisten _ _)
      | exact (hlisten _ _).trans (silent_unlisten _ _)
      | exact hupdate ‹_› hlog
      | exact hupdate ‹_› (hlisten _ _)
      | exact hupdate ‹_› (hlog.trans (silent_unlisten _ _))
      | exact hupdate ‹_› ((hlisten _ _).trans (silent_unlisten _ _))

/-- A change of the context answers nobody, however deep listeners react to it. -/
theorem deliver_context_silent (depth : Nat) (w : World) (update : ContextUpdate) :
    Silent w (deliver depth w (.context update)) := by
  induction depth generalizing w update with
  | zero => exact Silent.refl w
  | succ depth ih =>
    have hpublished : Silent w { w with published := w.published ++ [.context update] } := by
      refine ⟨?_, ?_, rfl, rfl, fun _ ht => .inr ht⟩
      · rw [publish_books]
        exact Books.ext rfl rfl rfl rfl rfl rfl rfl rfl rfl (List.append_nil _)
      · exact (List.filter_append ..).trans (List.append_nil _)
    exact hpublished.trans (deliver_succ_silent ih w (.context update))

/-- **An event** is all that is said when it is fired, whatever listeners do when they hear of it. -/
theorem fire_silent (w : World) (e : BusEvent) : Silent { w with published := w.published ++ [e] } (w.fire e) :=
  deliver_succ_silent (deliver_context_silent _) w e

theorem fire_answers (w : World) {e : BusEvent} {id : RequestId} (hid : e.id? = some id) :
    (w.fire e).answers = w.answers ++ [e] := by
  rw [(fire_silent w e).answers]
  refine (List.filter_append ..).trans ?_
  rw [List.filter_cons_of_pos (by rw [hid]; rfl), List.filter_nil]
  rfl

theorem setContext_silent {extras : Extras} {fields : Changes} {context : Context}
    (h : w.setContext extras fields = .ok (v, context)) : Silent w v := by
  unfold setContext at h
  rcases hc : w.commit extras fields with f | ⟨w', update⟩
  · rw [hc] at h; cases h
  · rw [hc] at h
    cases h
    exact ((commit_silent hc).trans (deliver_context_silent _ _ _)).trans (silent_announce _ rfl)

/-! ### Registrations -/

theorem withLedger_silent {clock : Clockwork} {ledger : Ledger ServiceCallback} {owned : List Nat}
    (h : w.clock.Touched clock) : Silent w { w.withLedger ledger owned with clock } := by
  obtain ⟨more, hmore, hdisposed⟩ := h.journal
  refine ⟨w.withLedger_books clock ledger owned h.now, rfl, repeated_of_journal hmore fun e he => ?_, rfl,
    fun _ ht => .inr ht⟩
  obtain ⟨provider, rfl⟩ := hdisposed e he
  rfl

theorem register_silent {p : ProviderRef} {kinds : Option (List Capability)} {handle : Nat}
    (h : w.register p kinds = .ok (v, handle)) : Silent w v := by
  obtain ⟨ledger, -, rfl⟩ := register_eq h
  exact withLedger_silent (.refl _)

theorem dispose_silent (w : World) (handle : Nat) : Silent w (w.dispose handle).1 := by
  obtain ⟨clock, ledger, owned, h, touched⟩ := dispose_eq w handle
  rw [h]
  exact withLedger_silent touched

theorem doDeed_silent (w : World) (d : Deed) : Silent w (w.doDeed d) := by
  obtain ⟨clock, ledger, owned, h, touched⟩ := doDeed_eq w d
  rw [h]
  exact withLedger_silent touched

theorem doDue_silent (w : World) : Silent w w.doDue := by
  obtain ⟨clock, ledger, owned, h, touched⟩ := doDue_eq w
  have hsilent : Silent w { w.withLedger ledger owned with clock } := withLedger_silent touched
  rw [h]
  exact ⟨hsilent.books, hsilent.answers, hsilent.repeated, hsilent.hooks, hsilent.tellings⟩

theorem close_silent (w : World) : Silent w w.close.1 := by
  obtain ⟨clock, ledger, owned, tellings, h, touched, hfewer⟩ := close_eq w
  have hsilent : Silent w { w.withLedger ledger owned with clock } := withLedger_silent touched
  rw [h]
  exact ⟨hsilent.books, hsilent.answers, hsilent.repeated, hsilent.hooks, fun t ht => .inr (hfewer t ht)⟩

/-! ### Occurrences -/

/-- The service is used otherwise than by an operation. -/
def aside : Occurrence → Bool
  | .begin _ _ | .resume _ | .abort _ | .clock _ | .tell => false
  | _ => true

/-- **Using the service** otherwise than by an operation answers nobody. -/
theorem occur_silent {x : Occurrence} (hx : aside x = true) : Silent w (w.occur x) := by
  cases x with
  | begin _ _ | resume _ | abort _ | clock _ | tell => cases hx
  | due => exact doDue_silent w
  | deed d => exact doDeed_silent w d
  | register p kinds =>
    simp only [occur]
    split
    · exact Silent.refl w
    · next h => exact register_silent h
  | dispose handle => exact dispose_silent w handle
  | onDispose handle callback => exact ⟨rfl, rfl, rfl, rfl, fun _ ht => .inr ht⟩
  | listen stream name reaction => exact silent_listen w stream name reaction
  | unlisten name => exact silent_unlisten w name
  | setContext extras fields =>
    simp only [occur]
    split
    · exact Silent.refl w
    · next h => exact setContext_silent h
  | commit extras fields =>
    simp only [occur]
    split
    · exact Silent.refl w
    · next h => exact commit_silent h
  | clearContext => exact ⟨rfl, rfl, rfl, rfl, fun _ ht => .inr ht⟩
  | close => exact close_silent w

end World

namespace Scenario.Service

/-- Nothing has been said by a new service, and nothing waits to be said. -/
theorem world_unspoken {s : Setting} {w : World} (hw : s.world = .ok w) :
    w.published = [] ∧ w.tellings = [] ∧ w.clock.journal = [] := by
  obtain ⟨config, context, rfl⟩ := Setting.world_new hw
  exact ⟨rfl, rfl, rfl⟩

end Scenario.Service

end Orchestra
