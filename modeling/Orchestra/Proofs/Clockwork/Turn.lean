import Orchestra.Simulation.Clockwork

/-!
# Orchestra.Proofs.Clockwork.Turn — what one turn of a task does, and that tasks run out of turns

`Turn` says everything that a turn changes but providers and the journal: the task either ends now or waits again with
fewer turns left, and sources are cancelled now.  Each step is such a turn, so the turns that are left bound the steps
(`step_turns`), and `settle` stops only when no task can run (`settle_step`).
-/

namespace Orchestra

namespace Clockwork

/-- What the turn of a task does to a clockwork from which the task was taken; `size` bounds the turns it has left. -/
structure Turn (t : Task) (size : Nat) (c c' : Clockwork) : Prop where
  now : c'.now = c.now
  nextTask : c'.nextTask = c.nextTask
  cancelled : ∃ more, c'.cancelled = c.cancelled ++ more ∧ ∀ x ∈ more, x.2 = c.now
  went : (∃ o, c'.tasks = c.tasks ∧ c'.ended = c.ended ++ [⟨t.id, c.now, o⟩]) ∨
    ∃ wake moves last, moves.length < size ∧ c'.tasks = c.tasks ++ [{ t with state := .waiting wake moves last }] ∧
      c'.ended = c.ended

variable {c c' : Clockwork} {t : Task} {size : Nat}

theorem Turn.mono {size' : Nat} (h : Turn t size c c') (hle : size ≤ size') : Turn t size' c c' := by
  refine ⟨h.now, h.nextTask, h.cancelled, ?_⟩
  obtain ended | ⟨wake, moves, last, hlt, hwaits⟩ := h.went
  · exact .inl ended
  · exact .inr ⟨wake, moves, last, Nat.lt_of_lt_of_le hlt hle, hwaits⟩

/-! ### The parts of a turn -/

theorem turn_record (o : Except Fault Yield) : Turn t size c (c.record t.id o) :=
  ⟨rfl, rfl, ⟨[], by simp [record], by simp⟩, .inl ⟨o, rfl, rfl⟩⟩

theorem turn_suspend (wake : Wake) {moves : List Move} (last : Finish) (h : moves.length < size) :
    Turn t size c (c.suspend t wake moves last) :=
  ⟨rfl, rfl, ⟨[], by simp [suspend], by simp⟩, .inr ⟨wake, moves, last, h, rfl, rfl⟩⟩

/-- What is noted about providers is no part of a turn, and neither is what can be seen of it. -/
theorem Turn.of_note {index : Nat} {f : ProviderRecord → ProviderRecord} (h : Turn t size (c.note index f) c') :
    Turn t size c c' :=
  ⟨h.now, h.nextTask, h.cancelled, h.went⟩

theorem Turn.of_modifyBridge {index : Nat} {f : ModelBridge → ModelBridge}
    (h : Turn t size (c.modifyBridge index f) c') : Turn t size c c' :=
  ⟨h.now, h.nextTask, h.cancelled, h.went⟩

theorem Turn.of_log {e : Entry} (h : Turn t size (c.log e) c') : Turn t size c c' :=
  ⟨h.now, h.nextTask, h.cancelled, h.went⟩

theorem cancel_cancelled (c : Clockwork) (source : String) :
    ∃ more, (c.cancel source).cancelled = c.cancelled ++ more ∧ ∀ x ∈ more, x.2 = c.now := by
  unfold cancel
  split
  · exact ⟨[], by simp, by simp⟩
  · exact ⟨[(source, c.now)], rfl, by simp⟩

/-- Cancelling a source changes the cancelled sources only. -/
theorem cancel_eq (c : Clockwork) (source : String) :
    c.cancel source = { c with cancelled := (c.cancel source).cancelled } := by
  unfold cancel
  split <;> rfl

theorem Turn.of_cancel {source : String} (h : Turn t size (c.cancel source) c') : Turn t size c c' := by
  obtain ⟨more, hmore, htick⟩ := cancel_cancelled c source
  rw [cancel_eq, hmore] at h
  obtain ⟨more', hmore', htick'⟩ := h.cancelled
  refine ⟨h.now, h.nextTask, ⟨more ++ more', by rw [hmore', List.append_assoc], fun x hx => ?_⟩, h.went⟩
  rcases List.mem_append.mp hx with hx | hx
  · exact htick x hx
  · exact htick' x hx

theorem turn_finish (last : Finish) : Turn t size c (c.finish t last) := by
  cases last with
  | provider index reply =>
    rcases reply with f | f | r
    · exact (turn_record _).of_note
    · exact (turn_record _).of_note.of_note
    · exact (turn_record _).of_note
  | model index name since reply => exact turn_record _
  | prepare index reply =>
    cases reply with
    | error f => exact turn_record _
    | ok u => exact (turn_record _).of_note
  | resolve reply => exact turn_record _
  | nothing => exact turn_record _

/-- Playing moves leaves the task fewer turns than it has moves to make. -/
theorem turn_play (last : Finish) (moves : List Move) : Turn t moves.length c (c.play t last moves) := by
  induction moves generalizing c last with
  | nil => exact turn_finish last
  | cons move rest ih =>
    have hrest : rest.length ≤ (move :: rest).length := Nat.le_succ _
    cases move with
    | pause ticks => exact turn_suspend _ last (Nat.lt_succ_self _)
    | park => exact turn_suspend _ last (Nat.lt_succ_self _)
    | awaitCancellation =>
      simp only [play]
      split
      · exact (ih last).mono hrest
      · exact turn_suspend _ last (Nat.lt_succ_self _)
    | cancel source => exact ((ih last).mono hrest).of_cancel
    | checkpoint operation =>
      simp only [play]
      split
      · exact turn_finish _
      · exact (ih last).mono hrest

theorem length_moves_le {α : Type} (r : Reply α) : r.moves.length ≤ 4 := by
  unfold Reply.moves
  split <;> cases r.wait <;> cases r.cancel <;> cases r.check <;> simp

theorem turn_begin (start : Start) : Turn t 5 c (c.begin t start) := by
  have hmoves {α : Type} (r : Reply α) : r.moves.length ≤ 5 := Nat.le_trans (length_moves_le r) (by decide)
  cases start with
  | call index kind payload context =>
    simp only [begin]
    split
    · exact ((turn_play _ _).mono (hmoves _)).of_log.of_note
    · split
      · exact turn_record _
      · exact ((turn_play _ _).mono (hmoves _)).of_log.of_modifyBridge
    · exact turn_record _
  | prepare index =>
    simp only [begin]
    split
    · exact (turn_play _ _).mono (hmoves _)
    · exact turn_record _
  | resolve reply => exact (turn_play _ _).mono (hmoves _)

/-! ### A step -/

/-- The clockwork without a task. -/
def without (c : Clockwork) (t : Task) : Clockwork := { c with tasks := c.tasks.filter (·.id != t.id) }

/-- What a task does when it is its turn. -/
def goOn (c : Clockwork) (t : Task) : Clockwork :=
  match t.state with
  | .fresh start => (c.without t).begin t start
  | .waiting _ moves last => (c.without t).play t last moves

theorem step_eq_some : c.step = some c' ↔ ∃ t, c.tasks.find? c.isReady = some t ∧ c' = c.goOn t := by
  unfold step
  rw [Option.map_eq_some_iff]
  exact exists_congr fun t => and_congr_right fun _ => by
    unfold goOn without
    exact eq_comm

theorem step_eq_none : c.step = none ↔ ∀ t ∈ c.tasks, c.isReady t = false := by
  simp [step]

theorem turn_goOn (t : Task) : Turn t (t.turns - 1) (c.without t) (c.goOn t) := by
  unfold goOn Task.turns
  cases t.state with
  | fresh start => exact turn_begin start
  | waiting wake moves last => exact turn_play last moves

/-- **A step is the turn of a task that can run.** -/
theorem turn_of_step (h : c.step = some c') :
    ∃ t ∈ c.tasks, c.isReady t = true ∧ Turn t (t.turns - 1) (c.without t) c' := by
  obtain ⟨t, ht, rfl⟩ := step_eq_some.mp h
  exact ⟨t, List.mem_of_find?_eq_some ht, List.find?_some ht, turn_goOn t⟩

/-! ### Turns run out -/

/-- The turns that tasks have left together. -/
def turnsOf (ts : List Task) : Nat := ts.foldr (fun t n => t.turns + n) 0

theorem turns_eq (c : Clockwork) : c.turns = turnsOf c.tasks := rfl

theorem turnsOf_cons (t : Task) (ts : List Task) : turnsOf (t :: ts) = t.turns + turnsOf ts := rfl

theorem turnsOf_concat (ts : List Task) (t : Task) : turnsOf (ts ++ [t]) = turnsOf ts + t.turns := by
  induction ts with
  | nil => exact Nat.add_comm _ _
  | cons t' ts ih =>
    rw [List.cons_append, turnsOf_cons, turnsOf_cons, ih]
    omega

theorem turnsOf_filter_le (q : Task → Bool) (ts : List Task) : turnsOf (ts.filter q) ≤ turnsOf ts := by
  induction ts with
  | nil => exact Nat.le_refl _
  | cons t ts ih =>
    rw [List.filter_cons]
    split
    · rw [turnsOf_cons, turnsOf_cons]; omega
    · rw [turnsOf_cons]; omega

theorem turns_pos (t : Task) : 0 < t.turns := by
  unfold Task.turns
  split <;> omega

theorem turns_without (ht : t ∈ c.tasks) : (c.without t).turns + t.turns ≤ c.turns := by
  have hmain : ∀ ts : List Task, t ∈ ts → turnsOf (ts.filter (·.id != t.id)) + t.turns ≤ turnsOf ts := by
    intro ts ht
    induction ts with
    | nil => cases ht
    | cons t' ts ih =>
      have hle := turnsOf_filter_le (·.id != t.id) ts
      rw [List.filter_cons, turnsOf_cons]
      rcases List.mem_cons.mp ht with rfl | ht
      · rw [bne_self_eq_false, if_neg Bool.false_ne_true]
        omega
      · have h := ih ht
        split
        · rw [turnsOf_cons]; omega
        · omega
  exact hmain c.tasks ht

/-- A step uses up a turn. -/
theorem step_turns (h : c.step = some c') : c'.turns < c.turns := by
  obtain ⟨t, ht, -, turn⟩ := turn_of_step h
  have hle := turns_without ht
  have hpos := turns_pos t
  obtain ⟨o, htasks, -⟩ | ⟨wake, moves, last, hlt, htasks, -⟩ := turn.went
  · have hturns : c'.turns = (c.without t).turns := by rw [turns_eq, htasks, turns_eq]
    omega
  · have hturns : c'.turns = (c.without t).turns + (moves.length + 1) := by
      rw [turns_eq, htasks, turnsOf_concat, turns_eq]
      rfl
    omega

theorem step_of_turns_eq_zero (h : c.turns = 0) : c.step = none := by
  rw [step_eq_none]
  intro t ht
  have := turns_without ht
  have := turns_pos t
  omega

theorem run_step {n : Nat} (h : c.turns ≤ n) : (run n c).step = none := by
  induction n generalizing c with
  | zero => exact step_of_turns_eq_zero (Nat.le_zero.mp h)
  | succ n ih =>
    simp only [run]
    split
    · assumption
    · rename_i c' hc'
      exact ih (Nat.le_of_lt_succ (Nat.lt_of_lt_of_le (step_turns hc') h))

/-- **Once settled, no task can run.** -/
theorem settle_step (c : Clockwork) : c.settle.step = none := run_step (Nat.le_refl _)

theorem settle_of_step (h : c.step = none) : c.settle = c := by
  unfold settle
  cases c.turns with
  | zero => rfl
  | succ n => simp only [run, h]

/-- What every step keeps still holds once tasks have settled. -/
theorem settle_induction {P : Clockwork → Prop} (hstep : ∀ c c', P c → c.step = some c' → P c') (h : P c) :
    P c.settle := by
  unfold settle
  generalize c.turns = n
  induction n generalizing c with
  | zero => exact h
  | succ n ih =>
    simp only [run]
    split
    · exact h
    · rename_i c' hc'
      exact ih (hstep c c' h hc')

theorem settle_turns_le (c : Clockwork) : c.settle.turns ≤ c.turns :=
  settle_induction (P := fun c' => c'.turns ≤ c.turns) (fun _ _ h hstep => Nat.le_trans (Nat.le_of_lt (step_turns hstep)) h)
    (Nat.le_refl _)

theorem settle_turns_lt (h : c.step = some c') : c.settle.turns < c.turns := by
  have hpos : 0 < c.turns := Nat.lt_of_le_of_lt (Nat.zero_le _) (step_turns h)
  obtain ⟨n, hn⟩ := Nat.exists_eq_succ_of_ne_zero (Nat.ne_of_gt hpos)
  have hrun : c.settle = run n c' := by
    simp only [settle, hn, run, h]
  have hle : ∀ n c, (run n c).turns ≤ c.turns := by
    intro n
    induction n with
    | zero => exact fun _ => Nat.le_refl _
    | succ n ih =>
      intro c
      simp only [run]
      split
      · exact Nat.le_refl _
      · rename_i c' hc'
        exact Nat.le_trans (ih c') (Nat.le_of_lt (step_turns hc'))
  rw [hrun]
  exact Nat.lt_of_le_of_lt (hle n c') (step_turns h)

/-! ### What is due next -/

/-- The next tick at which a task is due: one waits for it, and none for an earlier one. -/
theorem nextDue_eq_some {due : Tick} (h : c.nextDue = some due) :
    (∃ t ∈ c.tasks, ∃ moves last, t.state = .waiting (.atTick due) moves last) ∧
      ∀ t ∈ c.tasks, ∀ due' moves last, t.state = .waiting (.atTick due') moves last → due ≤ due' := by
  obtain ⟨hmem, hmin⟩ := List.min?_eq_some_iff.mp h
  obtain ⟨t, ht, hstate⟩ := List.mem_filterMap.mp hmem
  refine ⟨⟨t, ht, ?_⟩, fun t' ht' due' moves last hstate' => hmin due' (List.mem_filterMap.mpr ⟨t', ht', by rw [hstate']⟩)⟩
  split at hstate
  · rename_i moves last hs
    exact ⟨moves, last, by rw [hs, Option.some.inj hstate]⟩
  · cases hstate

end Clockwork

end Orchestra
