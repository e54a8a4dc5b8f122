import Orchestra.Proofs.Runs.Happening
import Orchestra.Proofs.Runs.Retention

/-!
# Orchestra.Proofs.Service.Lasting — bridges last while the service is used

While the service is asked and its context updated, nothing is registered and nothing disposed of (`Happening.Uses`).  Then
its registrations stay as they are, and a bridge stays where it is and to the same model, whoever calls it; one that was
disposed of stays so (`uses_lasts`).
-/

namespace Orchestra

/-- Nothing is registered, disposed of or closed: what is left is to ask for something and to be told, to update the
context, to cancel, and to let time pass. -/
def Happening.Uses : Happening → Prop
  | .occurs (.register _ _) | .occurs (.dispose _) | .occurs (.onDispose _ _) | .occurs .close => False
  | .occurs (.deed (.register _)) | .occurs (.deed (.dispose _)) | .disposeDirectly _ => False
  | _ => True

namespace Clockwork

/-- Every bridge is where it was, to the same model; one that was disposed of is so still. -/
def Lasts (c c' : Clockwork) : Prop :=
  ∀ (index : Nat) (b : ModelBridge), c.providers[index]? = some (.bridge b) →
    ∃ b', c'.providers[index]? = some (.bridge b') ∧ b'.name = b.name ∧ (b.disposed = true → b'.disposed = true)

variable {c c' c'' : Clockwork} {t : Task}

theorem Lasts.of_providers (h : c'.providers = c.providers) : Lasts c c' := fun _ b hb => ⟨b, h ▸ hb, rfl, id⟩

theorem Lasts.refl (c : Clockwork) : Lasts c c := .of_providers rfl

theorem Lasts.trans (h : Lasts c c') (h' : Lasts c' c'') : Lasts c c'' := by
  intro index b hb
  obtain ⟨b₁, hb₁, hname₁, hdisposed₁⟩ := h index b hb
  obtain ⟨b₂, hb₂, hname₂, hdisposed₂⟩ := h' index b₁ hb₁
  exact ⟨b₂, hb₂, hname₂.trans hname₁, hdisposed₂ ∘ hdisposed₁⟩

/-- More providers may come. -/
theorem lasts_append (c : Clockwork) (ps : List Provider) : Lasts c { c with providers := c.providers ++ ps } :=
  fun index b hb => ⟨b, by rw [List.getElem?_append_left (List.getElem?_eq_some_iff.mp hb).1, hb], rfl, id⟩

theorem lasts_modifyScripted (c : Clockwork) (index : Nat) (f : ScriptedProvider → ScriptedProvider) :
    Lasts c (c.modifyScripted index f) := by
  intro i b hb
  refine ⟨b, ?_, rfl, id⟩
  rw [modifyScripted, List.getElem?_modify, hb]
  by_cases hi : index = i <;> simp [hi]

theorem lasts_note (c : Clockwork) (index : Nat) (f : ProviderRecord → ProviderRecord) : Lasts c (c.note index f) :=
  c.lasts_modifyScripted index _

/-- A change of one bridge, which may be called or disposed of. -/
theorem lasts_modifyBridge (c : Clockwork) (index : Nat) {f : ModelBridge → ModelBridge}
    (hf : ∀ b, (f b).name = b.name ∧ (b.disposed = true → (f b).disposed = true)) : Lasts c (c.modifyBridge index f) := by
  intro i b hb
  by_cases hi : index = i
  · subst hi
    refine ⟨f b, ?_, hf b⟩
    rw [modifyBridge, List.getElem?_modify_eq, hb]
    rfl
  · refine ⟨b, ?_, rfl, id⟩
    rw [modifyBridge, List.getElem?_modify_ne _ _ hi, hb]

/-! ### Turns -/

/-- What is seen, and what ends, moves no bridge. -/
theorem Lasts.log (h : Lasts c c') (e : Entry) : Lasts c (c'.log e) := h.trans (.of_providers rfl)

theorem Lasts.record (h : Lasts c c') (task : Nat) (outcome : Except Fault Yield) : Lasts c (c'.record task outcome) :=
  h.trans (.of_providers rfl)

theorem finish_lasts (c : Clockwork) (t : Task) (last : Finish) : Lasts c (c.finish t last) := by
  cases last with
  | provider index reply =>
    rcases reply with f | f | r
    · exact (c.lasts_note index _).record t.id _
    · exact ((c.lasts_note index _).trans (lasts_note _ index _)).record t.id _
    · exact (c.lasts_note index _).record t.id _
  | prepare index reply =>
    rcases reply with f | u
    · exact (Lasts.refl c).record t.id _
    · exact (c.lasts_note index _).record t.id _
  | model _ _ _ _ | resolve _ | nothing => exact (Lasts.refl c).record t.id _

theorem play_lasts (c : Clockwork) (t : Task) (last : Finish) (moves : List Move) :
    Lasts c (c.play t last moves) := by
  induction moves generalizing c last with
  | nil => exact c.finish_lasts t last
  | cons move rest ih =>
    cases move with
    | pause ticks => exact .refl c
    | park => exact .refl c
    | awaitCancellation =>
      simp only [play]
      split
      · exact ih c last
      · exact .refl c
    | cancel source =>
      refine Lasts.trans (.of_providers ?_) (ih (c.cancel source) last)
      rw [cancel_eq]
    | checkpoint operation =>
      simp only [play]
      split
      · exact c.finish_lasts t _
      · exact ih c last

theorem begin_lasts (c : Clockwork) (t : Task) (start : Start) : Lasts c (c.begin t start) := by
  cases start with
  | call index kind payload context =>
    simp only [begin]
    split
    · exact ((c.lasts_note index _).log _).trans (play_lasts _ t _ _)
    · split
      · exact .refl c
      · refine Lasts.trans (Lasts.log (c.lasts_modifyBridge index ?_) _) (play_lasts _ t _ _)
        exact fun _ => ⟨rfl, id⟩
    · exact .refl c
  | prepare index =>
    simp only [begin]
    split
    · exact c.play_lasts t _ _
    · exact .refl c
  | resolve reply => exact c.play_lasts t _ _

/-- Bridges last over a **turn** of a task. -/
theorem step_lasts (h : c.step = some c') : Lasts c c' := by
  obtain ⟨t, -, rfl⟩ := Option.map_eq_some_iff.mp h
  have hwithout : Lasts c { c with tasks := c.tasks.filter (·.id != t.id) } := .of_providers rfl
  refine hwithout.trans ?_
  dsimp only
  split
  · exact begin_lasts _ t _
  · exact play_lasts _ t _ _

end Clockwork

namespace World

variable {u v w : World} {x : Happening}

/-- The registrations stay as they are, and bridges last. -/
structure Lasts (w v : World) : Prop where
  ledger : v.service.ledger = w.service.ledger
  owned : v.service.owned = w.service.owned
  bridges : w.clock.Lasts v.clock

theorem Lasts.refl (w : World) : Lasts w w := ⟨rfl, rfl, .refl _⟩

theorem Lasts.trans (h : Lasts w v) (h' : Lasts v u) : Lasts w u :=
  ⟨h'.ledger.trans h.ledger, h'.owned.trans h.owned, h.bridges.trans h'.bridges⟩

theorem Retains.lasts (h : Retains w v) : Lasts w v := ⟨h.ledger, h.owned, .of_providers h.providers⟩

theorem lasts_of_clock {clock : Clockwork} (h : w.clock.Lasts clock) : Lasts w { w with clock } := ⟨rfl, rfl, h⟩

/-- What occurs while the service is used. -/
theorem occur_lasts {y : Occurrence} (hy : (Happening.occurs y).Uses) (hmay : w.mayOccur y = true)
    (hagenda : w.agenda = []) : Lasts w (w.occur y) := by
  cases y with
  | begin order token => exact (begin_retains w order token).lasts
  | resume op =>
    simp only [occur]
    cases ho : w.operations[op]? with
    | none => exact .refl w
    | some o =>
      rw [Option.bind_some]
      cases hr : w.resume op o with
      | none => exact .refl w
      | some v => exact (resume_retains hr).lasts
  | abort op =>
    obtain ⟨clock, tellings, hretains, hproviders, -⟩ := abort_retains w op
    have hstopped : Lasts w { w with clock, tellings } := ⟨rfl, rfl, .of_providers hproviders⟩
    exact hstopped.trans hretains.lasts
  | clock c => cases hmay
  | tell =>
    have hseen : Retains w ((w.tellings.flatMap (·.seen w.now)).foldl log w) := foldl_retains log_retains _ w
    exact ⟨hseen.ledger, hseen.owned, .of_providers hseen.providers⟩
  | due =>
    -- nothing is on the agenda
    have hdue : w.doDue = { w with agenda := w.laterDeeds } := by rw [doDue, laterDeeds, hagenda]; rfl
    rw [occur, hdue]
    exact ⟨rfl, rfl, .refl _⟩
  | deed d =>
    cases d with
    | cancel source =>
      refine lasts_of_clock (.of_providers ?_)
      rw [Clockwork.cancel_eq]
    | dispose _ | register _ => exact hy.elim
  | register _ _ | dispose _ | onDispose _ _ | close => exact hy.elim
  | listen stream name reaction => exact (listen_retains w stream name reaction).lasts
  | unlisten name => exact (unlisten_retains w name).lasts
  | setContext extras fields =>
    simp only [occur]
    split
    · exact .refl w
    · next h => exact (setContext_retains h).lasts
  | commit extras fields =>
    simp only [occur]
    split
    · exact .refl w
    · next h => exact (commit_retains h).lasts
  | clearContext => exact ⟨rfl, rfl, .refl _⟩

theorem happen_lasts (hx : x.Uses) (hagenda : w.agenda = []) : Lasts w (w.happen x) := by
  cases x with
  | occurs y =>
    simp only [happen]
    split
    · next hmay => exact occur_lasts hx hmay hagenda
    · exact .refl w
  | turn =>
    rw [happen]
    cases h : w.clock.step with
    | none => exact .refl w
    | some c => exact lasts_of_clock (Clockwork.step_lasts h)
  | pass tick =>
    simp only [happen]
    split
    · exact lasts_of_clock (.of_providers rfl)
    · exact .refl w
  | prepare _ | timer _ | read => exact lasts_of_clock (.of_providers rfl)
  | provide p => exact lasts_of_clock (Clockwork.lasts_append w.clock [p])
  | disposeDirectly _ => exact hx.elim

/-- What is not on the agenda does not get there. -/
theorem happen_agenda (h : w.agenda = []) (x : Happening) : (w.happen x).agenda = [] := by
  have hgoes := happen_goes w x
  generalize w.happen x = v at hgoes
  cases hgoes with
  | works stopped works _ _ =>
    refine List.eq_nil_iff_forall_not_mem.mpr fun d hd => ?_
    have hmem := works.agenda d hd
    rw [h] at hmem
    exact List.not_mem_nil hmem
  | turn _ => exact h
  | pass _ _ _ _ => exact h

/-- **While the service is used**, its registrations stay and bridges last. -/
theorem uses_lasts (hagenda : w.agenda = []) {xs : List Happening} (hxs : ∀ x ∈ xs, x.Uses) :
    Lasts w (w.unfold xs) ∧ (w.unfold xs).agenda = [] := by
  induction xs using List.reverseRecOn with
  | nil => exact ⟨.refl w, hagenda⟩
  | append_singleton xs x ih =>
    obtain ⟨hxs, hx⟩ := List.forall_mem_append.mp hxs
    obtain ⟨hlasts, hnone⟩ := ih hxs
    rw [unfold_concat]
    exact ⟨hlasts.trans (happen_lasts (hx x (List.mem_singleton.mpr rfl)) hnone), happen_agenda hnone x⟩

end World

end Orchestra
