import Orchestra.Proofs.Clockwork.History
import Orchestra.Service.Progress

/-!
# Orchestra.Proofs.Service.Deeds — what deeds from outside leave alone

Registering, disposing and cancelling change the ledger, mark providers and cancel sources at the current tick.  They
touch no task (`Touched`) and no operation, publish nothing and count nothing; so does everything that is due
(`doDue_eq`).
-/

namespace Orchestra

/-- A provider or a model was asked for something. -/
def Entry.isCall : Entry → Bool
  | .call _ _ _ _ _ _ | .complete _ _ _ => true
  | _ => false

namespace Clockwork

/-- Only providers, the cancelled sources and the journal changed; sources were cancelled now, and nothing was seen but
that providers were disposed of. -/
structure Touched (c c' : Clockwork) : Prop where
  now : c'.now = c.now
  nextTask : c'.nextTask = c.nextTask
  tasks : c'.tasks = c.tasks
  ended : c'.ended = c.ended
  cancelled : ∃ more, c'.cancelled = c.cancelled ++ more ∧ ∀ x ∈ more, x.2 = c.now
  journal : ∃ more, c'.journal = more ++ c.journal ∧ ∀ e ∈ more, ∃ provider, e = .dispose provider

variable {c c' c'' : Clockwork}

theorem Touched.refl (c : Clockwork) : Touched c c :=
  ⟨rfl, rfl, rfl, rfl, ⟨[], by simp, by simp⟩, ⟨[], rfl, List.forall_mem_nil _⟩⟩

theorem Touched.trans (h : Touched c c') (h' : Touched c' c'') : Touched c c'' := by
  obtain ⟨xs, hxs, hxs'⟩ := h.cancelled
  obtain ⟨xs₂, hxs₂, hxs₂'⟩ := h'.cancelled
  obtain ⟨ys, hys, hys'⟩ := h.journal
  obtain ⟨ys₂, hys₂, hys₂'⟩ := h'.journal
  rw [h.now] at hxs₂'
  exact ⟨h'.now.trans h.now, h'.nextTask.trans h.nextTask, h'.tasks.trans h.tasks, h'.ended.trans h.ended,
    ⟨xs ++ xs₂, by rw [hxs₂, hxs, List.append_assoc], List.forall_mem_append.mpr ⟨hxs', hxs₂'⟩⟩,
    ⟨ys₂ ++ ys, by rw [hys₂, hys, List.append_assoc], List.forall_mem_append.mpr ⟨hys₂', hys'⟩⟩⟩

/-- Nobody was called. -/
theorem Touched.calls (h : Touched c c') : c'.journal.filter Entry.isCall = c.journal.filter Entry.isCall := by
  obtain ⟨more, hmore, hdisposed⟩ := h.journal
  have hnone : more.filter Entry.isCall = [] := by
    refine List.filter_eq_nil_iff.mpr fun e he => ?_
    obtain ⟨provider, rfl⟩ := hdisposed e he
    exact Bool.false_ne_true
  rw [hmore, List.filter_append, hnone, List.nil_append]

theorem Touched.within (h : Touched c c') : Within c c' := ⟨h.now, ⟨[], by simp [h.ended], by simp⟩, h.cancelled⟩

theorem Touched.numbered (h : Touched c c') (hn : c.Numbered) : c'.Numbered :=
  hn.of_perm (by rw [ids, ids, h.tasks, h.ended]) h.nextTask

theorem Touched.turns (h : Touched c c') : c'.turns = c.turns := by rw [Clockwork.turns, h.tasks]; rfl

theorem touched_cancel (c : Clockwork) (source : String) : Touched c (c.cancel source) := by
  rw [cancel_eq]
  exact ⟨rfl, rfl, rfl, rfl, cancel_cancelled c source, ⟨[], rfl, List.forall_mem_nil _⟩⟩

theorem touched_disposeProvider (c : Clockwork) (index : Nat) : Touched c (c.disposeProvider index).1 := by
  unfold disposeProvider
  split
  · next p _ =>
    exact ⟨rfl, rfl, rfl, rfl, ⟨[], by simp [note, modifyScripted, log], by simp⟩,
      ⟨[.dispose p.key], rfl, by simp⟩⟩
  · exact ⟨rfl, rfl, rfl, rfl, ⟨[], by simp [modifyBridge], by simp⟩, ⟨[], rfl, List.forall_mem_nil _⟩⟩
  · exact Touched.refl c

end Clockwork

namespace World

variable {w w' : World}

/-- The world with another ledger, and with other registrations to be disposed of by the service. -/
def withLedger (w : World) (ledger : Ledger ServiceCallback) (owned : List Nat) : World :=
  { w with service := { w.service with ledger, owned } }

theorem register_eq {p : ProviderRef} {kinds : Option (List Capability)} {handle : Nat}
    (h : w.register p kinds = .ok (w', handle)) :
    ∃ ledger, w.service.ledger.register p kinds = .ok (ledger, handle) ∧
      w' = w.withLedger (ledger.onDispose handle .forget) (w.service.owned ++ [handle]) := by
  unfold register at h
  rcases hr : w.service.ledger.register p kinds with f | ⟨ledger, number⟩
  · rw [hr] at h; cases h
  · rw [hr] at h
    cases h
    exact ⟨ledger, rfl, rfl⟩

theorem runCallbacks_eq (callbacks : List ServiceCallback) (w : World) (handle : Nat) :
    ∃ owned f, w.runCallbacks handle callbacks = (w.withLedger w.service.ledger owned, f) := by
  induction callbacks generalizing w with
  | nil => exact ⟨w.service.owned, none, rfl⟩
  | cons callback rest ih =>
    cases callback with
    | forget =>
      obtain ⟨owned, f, h⟩ := ih (w.withLedger w.service.ledger (w.service.owned.erase handle))
      exact ⟨owned, f, h⟩
    | fail => exact ⟨w.service.owned, _, rfl⟩

theorem dispose_eq (w : World) (handle : Nat) :
    ∃ clock ledger owned, (w.dispose handle).1 = { w.withLedger ledger owned with clock } ∧
      w.clock.Touched clock := by
  unfold dispose
  rcases w.service.ledger.dispose handle with ⟨ledger, _ | d⟩
  · exact ⟨w.clock, ledger, w.service.owned, rfl, .refl _⟩
  · obtain ⟨owned, f, hr⟩ := runCallbacks_eq d.callbacks (w.withLedger ledger w.service.owned) handle
    unfold withLedger at hr
    simp only [hr]
    rcases f with _ | f
    · simp only
      split
      · exact ⟨_, ledger, owned, rfl, Clockwork.touched_disposeProvider w.clock _⟩
      · exact ⟨w.clock, ledger, owned, rfl, .refl _⟩
    · exact ⟨w.clock, ledger, owned, rfl, .refl _⟩

theorem disposeAll_eq (handles : List Nat) (w : World) :
    ∃ clock ledger owned, (w.disposeAll handles).1 = { w.withLedger ledger owned with clock } ∧
      w.clock.Touched clock := by
  induction handles generalizing w with
  | nil => exact ⟨w.clock, w.service.ledger, w.service.owned, rfl, .refl _⟩
  | cons handle rest ih =>
    obtain ⟨clock, ledger, owned, hd, touched⟩ := dispose_eq w handle
    unfold disposeAll
    split
    · next h =>
      rw [h] at hd
      exact ⟨clock, ledger, owned, hd, touched⟩
    · next w' f _ h =>
      rw [h] at hd
      obtain rfl : w' = _ := hd
      obtain ⟨clock', ledger', owned', hrest, touched'⟩ := ih { w.withLedger ledger owned with clock }
      exact ⟨clock', ledger', owned', hrest, touched.trans touched'⟩

/-- Closing changes the clockwork and the ledger, and some hooks are not told any more. -/
theorem close_eq (w : World) :
    ∃ clock ledger owned tellings, w.close.1 = { w.withLedger ledger owned with clock, tellings } ∧
      w.clock.Touched clock ∧ ∀ t ∈ tellings, t ∈ w.tellings := by
  obtain ⟨clock, ledger, owned, h, touched⟩ := disposeAll_eq w.service.owned w
  unfold close
  split
  · next h' =>
    rw [h'] at h
    exact ⟨clock, ledger, owned, w.tellings, h, touched, fun _ ht => ht⟩
  · next w' h' =>
    rw [h'] at h
    obtain rfl : w' = _ := h
    exact ⟨clock, ledger, [], _, rfl, touched, fun t ht => List.mem_of_mem_filter ht⟩

/-- A deed changes the clockwork and the ledger, and nothing else. -/
theorem doDeed_eq (w : World) (d : Deed) :
    ∃ clock ledger owned, w.doDeed d = { w.withLedger ledger owned with clock } ∧ w.clock.Touched clock := by
  have hsame : ∃ clock ledger owned, w = { w.withLedger ledger owned with clock } ∧ w.clock.Touched clock :=
    ⟨w.clock, w.service.ledger, w.service.owned, rfl, .refl _⟩
  cases d with
  | cancel source => exact ⟨_, w.service.ledger, w.service.owned, rfl, Clockwork.touched_cancel w.clock source⟩
  | dispose index =>
    simp only [doDeed]
    split
    · exact hsame
    · exact dispose_eq w _
  | register index =>
    simp only [doDeed]
    split
    · exact hsame
    · split
      · exact hsame
      · rename_i hr
        obtain ⟨ledger, -, rfl⟩ := register_eq hr
        exact ⟨w.clock, _, _, rfl, .refl _⟩

theorem foldl_doDeed_eq (ds : List (Tick × Deed)) (w : World) :
    ∃ clock ledger owned, ds.foldl (fun w d => w.doDeed d.2) w = { w.withLedger ledger owned with clock } ∧
      w.clock.Touched clock := by
  induction ds generalizing w with
  | nil => exact ⟨w.clock, w.service.ledger, w.service.owned, rfl, .refl _⟩
  | cons d ds ih =>
    obtain ⟨clock, ledger, owned, hd, touched⟩ := doDeed_eq w d.2
    obtain ⟨clock', ledger', owned', hds, touched'⟩ := ih (w.doDeed d.2)
    rw [List.foldl_cons, hds, hd]
    rw [hd] at touched'
    exact ⟨clock', ledger', owned', rfl, touched.trans touched'⟩

/-- The agenda without what is due. -/
def laterDeeds (w : World) : List (Tick × Deed) := w.agenda.filter fun d => !(d.1 ≤ w.now)

/-- **Deeds that are due** change the clockwork and the ledger, and leave the agenda. -/
theorem doDue_eq (w : World) :
    ∃ clock ledger owned,
      w.doDue = { w.withLedger ledger owned with clock, agenda := w.laterDeeds } ∧ w.clock.Touched clock := by
  obtain ⟨clock, ledger, owned, h, touched⟩ :=
    foldl_doDeed_eq (w.agenda.filter (·.1 ≤ w.now)) { w with agenda := w.laterDeeds }
  exact ⟨clock, ledger, owned, h, touched⟩

end World

end Orchestra
