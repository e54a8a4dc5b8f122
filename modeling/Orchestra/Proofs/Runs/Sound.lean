import Orchestra.Proofs.Runs.Happening

/-!
# Orchestra.Proofs.Runs.Sound — what holds in every world that arises from a new service

Tasks are told apart by their numbers, what is known belongs to the past, and an operation waits only for a task that was
given a number (`Arises.sound`).  A task that no operation waits for to look up its workspace is left alone by everything
but turns (`Spares`): it neither begins nor ends nor is stopped, whatever occurs.
-/

namespace Orchestra

namespace Clockwork

variable {c c' : Clockwork} {stopped : Option Nat}

theorem Tended.nextTask_le (h : Tended stopped c c') : c.nextTask ≤ c'.nextTask := by
  obtain ⟨new, -, -, hnext⟩ := h.tasks
  omega

theorem Tended.within (h : Tended stopped c c') : Within c c' :=
  ⟨h.now, ⟨[], by rw [h.ended, List.append_nil], by simp⟩, h.cancelled⟩

/-- New tasks have new numbers. -/
theorem Tended.numbered (h : Tended stopped c c') (hn : c.Numbered) : c'.Numbered := by
  obtain ⟨new, hnew, hids, hnext⟩ := h.tasks
  have hkept : ((c.tasks.filter fun t => stopped != some t.id).map Task.id ++ c.ended.map Ended.task).Sublist c.ids :=
    (List.filter_sublist.map Task.id).append_right _
  have hperm : c'.ids.Perm (List.range' c.nextTask new.length ++
      ((c.tasks.filter fun t => stopped != some t.id).map Task.id ++ c.ended.map Ended.task)) := by
    unfold ids
    rw [hnew, h.ended, List.map_append, hids, ← List.append_assoc]
    exact List.perm_append_comm.append_right _
  refine ⟨hperm.nodup_iff.mpr (List.nodup_append.mpr ⟨List.nodup_range', hn.nodup.sublist hkept, ?_⟩), fun i hi => ?_⟩
  · rintro i hi j hj rfl
    exact Nat.not_le_of_lt (hn.issued i (hkept.subset hj)) (List.mem_range'_1.mp hi).1
  · rw [hnext]
    rcases List.mem_append.mp (hperm.mem_iff.mp hi) with hi | hi
    · exact (List.mem_range'_1.mp hi).2
    · exact Nat.lt_of_lt_of_le (hn.issued i (hkept.subset hi)) (Nat.le_add_right _ _)

/-- Tasks that were there and are not stopped are left alone. -/
theorem Tended.filter (h : Tended stopped c c') {q : Nat → Bool} (hold : ∀ i, q i = true → i < c.nextTask)
    (hstopped : ∀ i, stopped = some i → q i = false) :
    c'.tasks.filter (fun t => q t.id) = c.tasks.filter (fun t => q t.id) := by
  obtain ⟨new, hnew, hids, -⟩ := h.tasks
  have hnone : new.filter (fun t => q t.id) = [] := by
    refine List.filter_eq_nil_iff.mpr fun t ht hq => ?_
    have hmem : t.id ∈ List.range' c.nextTask new.length := hids ▸ List.mem_map_of_mem ht
    exact Nat.not_le_of_lt (hold t.id hq) (List.mem_range'_1.mp hmem).1
  rw [hnew, List.filter_append, hnone, List.append_nil, List.filter_filter]
  refine List.filter_congr fun t _ => ?_
  rw [Bool.and_eq_left_iff_imp]
  intro hq
  rw [bne_iff_ne]
  intro hs
  rw [hstopped t.id hs] at hq
  cases hq

end Clockwork

namespace World

variable {u v w : World} {x : Happening}

/-- An operation looks up its workspace in the task of that number. -/
def Resolves (w : World) (task : Nat) : Prop :=
  ∃ (op : Nat) (o : Operation) (context : Context) (ask : Ask), w.operations[op]? = some o ∧
    o.stage = .resolving context ask task

structure Sound (w : World) : Prop where
  numbered : w.clock.Numbered
  timely : w.clock.Timely
  resolving : ∀ task, w.Resolves task → task < w.clock.nextTask

theorem Works.resolves {op : Option Nat} {stopped : Option Nat} (h : Works op stopped w v) {task : Nat}
    (ht : v.Resolves task) : w.Resolves task ∨ w.clock.nextTask ≤ task ∧ task < v.clock.nextTask := by
  obtain ⟨i, o, context, ask, ho, hs⟩ := ht
  obtain ⟨o', ho', hs'⟩ | hnew := h.resolving i o context ask task ho hs
  · exact .inl ⟨i, o', context, ask, ho', hs'⟩
  · exact .inr hnew.2

/-- Tasks stay ended and sources cancelled. -/
theorem Goes.grows (h : Goes w x v) : (∃ more, v.clock.ended = w.clock.ended ++ more) ∧
    ∀ token, w.isCancelled token = true → v.isCancelled token = true := by
  have hwithin : w.clock.Within v.clock → (∃ more, v.clock.ended = w.clock.ended ++ more) ∧
      ∀ token, w.isCancelled token = true → v.isCancelled token = true := by
    intro hw
    obtain ⟨more, hmore, -⟩ := hw.ended
    exact ⟨⟨more, hmore⟩, fun token h => Clockwork.isCancelled_of_append hw.cancelled h⟩
  cases h with
  | works stopped works _ _ => exact hwithin works.clock.within
  | turn step => exact hwithin (Clockwork.within_step step)
  | pass _ _ _ _ => exact ⟨⟨[], (List.append_nil _).symm⟩, fun _ h => h⟩

theorem Goes.sound (h : Goes w x v) (hw : w.Sound) : v.Sound := by
  cases h with
  | works stopped works _ _ =>
    refine ⟨works.clock.numbered hw.numbered, hw.timely.within works.clock.within, fun task ht => ?_⟩
    obtain hold | hnew := works.resolves ht
    · exact Nat.lt_of_lt_of_le (hw.resolving task hold) works.clock.nextTask_le
    · exact hnew.2
  | turn step =>
    obtain ⟨t, -, -, turn⟩ := Clockwork.turn_of_step step
    refine ⟨hw.numbered.step step, hw.timely.within (Clockwork.within_step step), fun task ht => ?_⟩
    show task < _
    rw [turn.nextTask]
    exact hw.resolving task ht
  | pass _ _ le _ => exact ⟨⟨hw.numbered.nodup, hw.numbered.issued⟩, hw.timely.at_ le, hw.resolving⟩

theorem Sound.unfold (h : w.Sound) (xs : List Happening) : (w.unfold xs).Sound := by
  induction xs using List.reverseRecOn with
  | nil => exact h
  | append_singleton xs x ih =>
    rw [unfold_concat]
    exact (happen_goes _ x).sound ih

/-- The world arises from a new service among any providers, by whatever happens. -/
def Arises (w : World) : Prop := ∃ (s : Scenario.Service.Setting) (v : World), s.world = .ok v ∧ Unfolds v w

/-- Whatever a service has been through, its world is sound. -/
theorem Arises.sound (h : w.Arises) : w.Sound := by
  obtain ⟨s, v, hv, xs, rfl⟩ := h
  refine Sound.unfold ?_ xs
  obtain ⟨config, context, rfl⟩ := Scenario.Service.Setting.world_new hv
  refine ⟨⟨List.nodup_nil, by simp [Clockwork.ids]⟩, ⟨by simp, by simp, fun y hy => ?_⟩, ?_⟩
  · obtain ⟨name, -, rfl⟩ := List.mem_map.mp hy
    exact Nat.le_refl _
  · rintro task ⟨op, o, context, ask, ho, -⟩
    cases ho

/-! ### Tasks that are left alone -/

/-- The task has its number, and no operation looks up its workspace in it. -/
structure Spares (w : World) (task : Nat) : Prop where
  issued : task < w.clock.nextTask
  unresolved : ¬ w.Resolves task

theorem Goes.spares (h : Goes w x v) {task : Nat} (hs : w.Spares task) : v.Spares task := by
  cases h with
  | works stopped works _ _ =>
    refine ⟨Nat.lt_of_lt_of_le hs.issued works.clock.nextTask_le, fun ht => ?_⟩
    obtain hold | ⟨hle, -⟩ := works.resolves ht
    · exact hs.unresolved hold
    · exact Nat.not_le_of_lt hs.issued hle
  | turn step =>
    obtain ⟨t, -, -, turn⟩ := Clockwork.turn_of_step step
    refine ⟨?_, hs.unresolved⟩
    show task < _
    rw [turn.nextTask]
    exact hs.issued
  | pass _ _ _ _ => exact ⟨hs.issued, hs.unresolved⟩

theorem Spares.unfold {task : Nat} (h : w.Spares task) (xs : List Happening) : (w.unfold xs).Spares task := by
  induction xs using List.reverseRecOn with
  | nil => exact h
  | append_singleton xs x ih =>
    rw [unfold_concat]
    exact (happen_goes _ x).spares ih

/-- What is worked on leaves spared tasks alone. -/
theorem Works.filter {op stopped : Option Nat} (h : Works op stopped w v)
    (hstopped : ∀ task, stopped = some task → w.Resolves task) {q : Nat → Bool}
    (hq : ∀ i, q i = true → w.Spares i) :
    v.clock.tasks.filter (fun t => q t.id) = w.clock.tasks.filter (fun t => q t.id) := by
  refine h.clock.filter (fun i hi => (hq i hi).issued) fun i hi => ?_
  by_contra hqi
  exact (hq i (Bool.not_eq_false _ ▸ hqi)).unresolved (hstopped i hi)

/-- What is stopped by whoever aborts an operation is a task in which a workspace is looked up. -/
theorem resolves_of_aborted {stopped : Option Nat} (h : ∀ task, stopped = some task → ∃ op o context ask,
    x = .occurs (.abort op) ∧ w.operations[op]? = some o ∧ o.stage = .resolving context ask task) :
    ∀ task, stopped = some task → w.Resolves task := by
  intro task ht
  obtain ⟨op, o, context, ask, -, ho, hs⟩ := h task ht
  exact ⟨op, o, context, ask, ho, hs⟩

/-- What is worked on neither takes away nor adds the task of a spared number. -/
theorem Works.mem_tasks {op stopped : Option Nat} (h : Works op stopped w v)
    (hstopped : ∀ task, stopped = some task → w.Resolves task) {t : Task} (hs : w.Spares t.id) :
    t ∈ v.clock.tasks ↔ t ∈ w.clock.tasks := by
  have hq : ∀ i, (i == t.id) = true → w.Spares i := fun i hi => beq_iff_eq.mp hi ▸ hs
  have hsame := h.filter hstopped hq
  have hmem : ∀ ts : List Task, t ∈ ts ↔ t ∈ ts.filter fun t' => t'.id == t.id := fun ts => by
    rw [List.mem_filter, beq_self_eq_true, and_iff_left rfl]
  rw [hmem v.clock.tasks, hmem w.clock.tasks, hsame]

/-- A spared task was there before, with the same token, and it is as it was unless it had its turn. -/
theorem Goes.task_before (h : Goes w x v) {t : Task} (ht : t ∈ v.clock.tasks) (hs : w.Spares t.id) :
    ∃ t' ∈ w.clock.tasks, t'.id = t.id ∧ t'.token = t.token ∧ (t' = t ∨ x = .turn ∧ w.clock.isReady t' = true) := by
  cases h with
  | works stopped works aborted _ =>
    exact ⟨t, (works.mem_tasks (resolves_of_aborted aborted) hs).mp ht, rfl, rfl, .inl rfl⟩
  | @turn clock step =>
    obtain ⟨t₀, hmem, hready, turn⟩ := Clockwork.turn_of_step step
    have ht : t ∈ clock.tasks := ht
    have hwithout : ∀ t', t' ∈ (w.clock.without t₀).tasks → t' ∈ w.clock.tasks := fun t' => List.mem_of_mem_filter
    obtain ⟨_, htasks, -⟩ | ⟨wake, moves, last, -, htasks, -⟩ := turn.went
    · exact ⟨t, hwithout t (htasks ▸ ht), rfl, rfl, .inl rfl⟩
    · rw [htasks] at ht
      rcases List.mem_append.mp ht with ht | ht
      · exact ⟨t, hwithout t ht, rfl, rfl, .inl rfl⟩
      · rw [List.mem_singleton.mp ht]
        exact ⟨t₀, hmem, rfl, rfl, .inr ⟨rfl, hready⟩⟩
  | pass _ _ _ _ => exact ⟨t, ht, rfl, rfl, .inl rfl⟩

end World

end Orchestra
