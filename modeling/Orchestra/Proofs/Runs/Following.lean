import Orchestra.Proofs.Clockwork.Underway
import Orchestra.Proofs.Runs.Sound

/-!
# Orchestra.Proofs.Runs.Following — a task that heeds no token follows its reply to the end

A workspace is looked up without a token, and so is a model asked.  Whatever else happens, such a task ends in the first of
its turns after its delay, with what it has then (`Pursues`): only whoever aborts the operation that looks up its workspace
in it can stop it before.
-/

namespace Orchestra

/-- What a task ends with whose moves are made, given whether its token is cancelled by then. -/
def Finish.outcome (cancelled : Bool) (now : Tick) : Finish → Except Fault Yield
  | .provider _ reply => (reply.bind id).map .result
  | .model _ name written since reply =>
    (Bridge.finish name written cancelled (now - since) reply).map fun r => .result (.chat r)
  | .prepare _ reply => reply.map fun _ => .nothing
  | .resolve reply => reply.map .workspace
  | .nothing => .ok .nothing

/-- The reply neither waits for a cancellation nor checks for one. -/
structure Reply.Heedless {α : Type} (r : Reply α) : Prop where
  wait : r.wait ≠ some .cancellation
  check : r.check = none

theorem Reply.heedless_withoutToken {α : Type} (r : Reply α) : r.withoutToken.Heedless := by
  refine ⟨fun h => ?_, rfl⟩
  obtain ⟨_, -, hwait⟩ := Option.map_eq_some_iff.mp h
  cases hwait

namespace Clockwork

variable {c c' : Clockwork} {t : Task} {start : Tick} {α : Type} {r : Reply α} {last : Finish}

/-! ### Turns -/

/-- The task ends now, with what it has. -/
def Concludes (c c' : Clockwork) (t : Task) (last : Finish) : Prop :=
  c'.ended = c.ended ++ [⟨t.id, c.now, last.outcome (c'.isCancelled t.token) c.now⟩]

theorem concludes_finish (last : Finish) : Concludes c (c.finish t last) t last := by
  cases last with
  | provider index reply => rcases reply with f | f | r <;> rfl
  | model index name written since reply => rfl
  | prepare index reply => cases reply <;> rfl
  | resolve reply => rfl
  | nothing => rfl

/-- After all waiting the task ends at once. -/
theorem concludes_rest (h : r.Heedless) : Concludes c (c.play t last r.rest) t last := by
  unfold Reply.rest
  rw [h.check]
  cases r.cancel with
  | none => exact concludes_finish last
  | some source =>
    have hfinish : Concludes (c.cancel source) ((c.cancel source).finish t last) t last := concludes_finish last
    unfold Concludes at hfinish ⊢
    rw [cancel_eq c source] at hfinish
    simpa only [Option.map_some, Option.map_none, Option.toList_some, Option.toList_none, List.append_nil, play,
      ← cancel_eq c source] using hfinish

/-- What a turn of a task comes to that follows a reply: it ends, the delay being over, or it waits. -/
inductive Steps (c c' : Clockwork) (t : Task) (start : Tick) (r : Reply α) (last : Finish) : Prop
  | ends (due : c.now = start + r.delay) (finite : r.wait = none) (concludes : Concludes c c' t last)
  | waits (t' : Task) (mem : t' ∈ c'.tasks) (id : t'.id = t.id) (same : t'.token = t.token)
      (place : Place c' t.token start r last t'.state)

theorem steps_suspend {wake : Wake} {moves : List Move}
    (place : Place c t.token start r last (.waiting wake moves last)) :
    Steps c (c.suspend t wake moves last) t start r last := by
  refine .waits { t with state := .waiting wake moves last } (List.mem_append_right _ (List.mem_singleton.mpr rfl)) rfl
    rfl ?_
  generalize TaskState.waiting wake moves last = state at place
  cases place with
  | pausing delay le => exact .pausing delay le
  | parked wait => exact .parked wait
  | awaiting wait le now => exact .awaiting wait le now

/-- A task whose delay is over ends, or it never will. -/
theorem steps_afterDelay (h : r.Heedless) (hnow : c.now = start + r.delay) :
    Steps c (c.play t last r.afterDelay) t start r last := by
  cases hwait : r.wait with
  | none =>
    have hmoves : r.afterDelay = r.rest := by rw [Reply.afterDelay, hwait]; rfl
    rw [hmoves]
    exact .ends hnow hwait (concludes_rest h)
  | some wait =>
    have hmoves : r.afterDelay = wait.move :: r.rest := by rw [Reply.afterDelay, hwait]; rfl
    rw [hmoves]
    cases wait with
    | forever => exact steps_suspend (.parked hwait)
    | cancellation => exact absurd hwait h.wait

/-- A task that begins now. -/
theorem steps_moves (h : r.Heedless) : Steps c (c.play t last r.moves) t c.now r last := by
  rw [Reply.moves_eq]
  split
  · next hd => exact steps_afterDelay h (by rw [hd]; rfl)
  · next hd => exact steps_suspend (.pausing hd (Nat.le_add_right _ _))

/-- A task that waited and can run. -/
theorem steps_goOn (h : r.Heedless) (place : Place c t.token start r last t.state) (hready : c.isReady t = true) :
    Steps (c.without t) (c.goOn t) t start r last := by
  rw [isReady] at hready
  rw [goOn]
  generalize t.state = state at place hready
  cases place with
  | pausing delay le =>
    exact steps_afterDelay (c := c.without t) h (Nat.le_antisymm le (of_decide_eq_true hready))
  | parked wait => cases hready
  | awaiting wait le now => exact absurd wait h.wait

/-- Where the same time has come, a task waits where it did. -/
theorem Place.within {token : Token} {state : TaskState} (place : Place c token start r last state) (h : r.Heedless)
    (hw : Within c c') : Place c' token start r last state := by
  cases place with
  | pausing delay le => exact .pausing delay (hw.now.symm ▸ le)
  | parked wait => exact .parked wait
  | awaiting wait le now => exact absurd wait h.wait

/-- Time passes no task by that is due. -/
theorem Place.at_ {token : Token} {tick : Tick} (place : Place c token start r last t.state) (h : r.Heedless)
    (hmem : t ∈ c.tasks) (hdue : ∀ due, c.nextDue = some due → tick ≤ due) :
    Place (c.at_ tick) token start r last t.state := by
  generalize hstate : t.state = state at place
  cases place with
  | pausing delay le =>
    obtain ⟨due, hnext⟩ : ∃ due, c.nextDue = some due := by
      rw [← Option.ne_none_iff_exists', ne_eq, nextDue, List.min?_eq_none_iff]
      exact List.ne_nil_of_mem (List.mem_filterMap.mpr ⟨t, hmem, by rw [hstate]⟩)
    exact .pausing delay (Nat.le_trans (hdue due hnext) ((nextDue_eq_some hnext).2 t hmem _ _ _ hstate))
  | parked wait => exact .parked wait
  | awaiting wait le now => exact absurd wait h.wait

end Clockwork

namespace World

variable {v w : World} {x : Happening} {xs : List Happening} {task : Nat} {token : Token} {start : Tick} {α : Type}
  {r : Reply α} {last : Finish} {t : Task}

/-! ### Runs -/

/-- Nobody aborts an operation that looks up its workspace in the task. -/
def Tolerates (w : World) (task : Nat) (x : Happening) : Prop :=
  ∀ (op : Nat) (o : Operation) (context : Context) (ask : Ask), x = .occurs (.abort op) → w.operations[op]? = some o →
    o.stage ≠ .resolving context ask task

theorem Spares.tolerates (h : w.Spares task) (x : Happening) : w.Tolerates task x :=
  fun op o context ask _ ho hs => h.unresolved ⟨op, o, context, ask, ho, hs⟩

/-- A task that nobody stops is there afterwards, unless it is its turn. -/
theorem Goes.keeps (h : Goes w x v) (hw : w.Sound) (htol : w.Tolerates t.id x) (ht : t ∈ w.clock.tasks) :
    t ∈ v.clock.tasks ∨ x = .turn ∧ w.clock.tasks.find? w.clock.isReady = some t ∧ v.clock = w.clock.goOn t := by
  cases h with
  | works stopped works aborted _ =>
    refine .inl ?_
    obtain ⟨new, htasks, -, -⟩ := works.clock.tasks
    rw [htasks]
    refine List.mem_append_left _ (List.mem_filter.mpr ⟨ht, bne_iff_ne.mpr fun hs => ?_⟩)
    obtain ⟨op, o, context, ask, hx, ho, hstage⟩ := aborted t.id hs
    exact htol op o context ask hx ho hstage
  | turn step =>
    obtain ⟨t', hfind, rfl⟩ := Clockwork.step_eq_some.mp step
    by_cases hid : t.id = t'.id
    · obtain rfl := Clockwork.task_unique hw.numbered ht (List.mem_of_find?_eq_some hfind) hid
      exact .inr ⟨rfl, hfind, rfl⟩
    · exact .inl ((Clockwork.turn_goOn t').mem_tasks ht hid)
  | pass _ _ _ _ => exact .inl ht

/-- Tasks stay ended. -/
theorem mem_ended_unfold {e : Ended} (he : e ∈ w.clock.ended) (xs : List Happening) : e ∈ (w.unfold xs).clock.ended := by
  induction xs using List.reverseRecOn with
  | nil => exact he
  | append_singleton xs x ih =>
    obtain ⟨⟨more, hmore⟩, -⟩ := (happen_goes (w.unfold xs) x).grows
    rw [unfold_concat, hmore]
    exact List.mem_append_left _ ih

theorem mem_ended_later {e : Ended} {mid : List Happening} (he : e ∈ (v.unfold (mid ++ [x])).clock.ended)
    (rest : List Happening) : e ∈ (v.unfold (mid ++ x :: rest)).clock.ended := by
  rw [← List.singleton_append, ← List.append_assoc, unfold_append]
  exact mem_ended_unfold he rest

/-- A task that began at a tick has followed a reply to its end, in the turn after `mid`, or it waits at a place of it. -/
inductive Pursues (v : World) (xs : List Happening) (task : Nat) (token : Token) (start : Tick) (r : Reply α)
    (last : Finish) : Prop
  | underway (t : Task) (mem : t ∈ (v.unfold xs).clock.tasks) (id : t.id = task) (same : t.token = token)
      (place : (v.unfold xs).clock.Place token start r last t.state)
  | ended (mid rest : List Happening) (split : xs = mid ++ .turn :: rest) (due : (v.unfold mid).now = start + r.delay)
      (finite : r.wait = none) (going : ∃ t ∈ (v.unfold mid).clock.tasks, t.id = task)
      (mem : ⟨task, start + r.delay, last.outcome ((v.unfold (mid ++ [.turn])).isCancelled token) (start + r.delay)⟩ ∈
        (v.unfold (mid ++ [.turn])).clock.ended)

/-- The turn of the task itself. -/
theorem pursues_of_steps (hmem : t ∈ (v.unfold xs).clock.tasks)
    (steps : ((v.unfold xs).clock.without t).Steps (v.unfold (xs ++ [.turn])).clock t start r last) :
    Pursues v (xs ++ [.turn]) t.id t.token start r last := by
  cases steps with
  | ends due finite concludes =>
    refine .ended xs [] rfl due finite ⟨t, hmem, rfl⟩ ?_
    rw [concludes, ← due]
    exact List.mem_append_right _ (List.mem_singleton.mpr rfl)
  | waits t' mem id same place => exact .underway t' mem id same place

/-- **Whatever happens next**, a task follows its reply. -/
theorem Pursues.concat (h : Pursues v xs task token start r last) (hr : r.Heedless) (hv : (v.unfold xs).Sound)
    (htol : (v.unfold xs).Tolerates task x) : Pursues v (xs ++ [x]) task token start r last := by
  have hgoes := happen_goes (v.unfold xs) x
  rw [← unfold_concat] at hgoes
  cases h with
  | ended mid rest split due finite going mem =>
    exact .ended mid (rest ++ [x]) (by rw [split, List.append_assoc, List.cons_append]) due finite going mem
  | underway t mem id same place =>
    subst id same
    obtain hkept | ⟨rfl, hfind, hclock⟩ := hgoes.keeps hv htol mem
    · refine .underway t hkept rfl rfl ?_
      generalize v.unfold (xs ++ [x]) = u at hgoes
      cases hgoes with
      | works stopped works _ _ => exact place.within hr works.clock.within
      | turn step => exact place.within hr (Clockwork.within_step step)
      | pass _ _ _ due => exact place.at_ hr mem due
    · refine pursues_of_steps mem ?_
      rw [hclock]
      exact Clockwork.steps_goOn hr place (List.find?_some hfind)

/-- The end of a task is the one that its reply leads to. -/
theorem Pursues.ended_eq (h : Pursues v xs task token start r last) (hv : (v.unfold xs).Sound) {e : Ended}
    (he : e ∈ (v.unfold xs).clock.ended) (hid : e.task = task) :
    r.wait = none ∧ e.tick = start + r.delay ∧ ∃ mid rest, xs = mid ++ .turn :: rest ∧
      (v.unfold mid).now = start + r.delay ∧ (∃ t ∈ (v.unfold mid).clock.tasks, t.id = task) ∧
      e ∈ (v.unfold (mid ++ [.turn])).clock.ended ∧
      e.outcome = last.outcome ((v.unfold (mid ++ [.turn])).isCancelled token) (start + r.delay) := by
  cases h with
  | underway t mem id _ _ =>
    exact absurd (id.trans hid.symm) (hv.numbered.not_ended mem he)
  | ended mid rest split due finite going mem =>
    subst split
    have heq := List.inj_on_of_nodup_map hv.numbered.ended_nodup he (mem_ended_later mem rest) hid
    rw [heq]
    exact ⟨finite, rfl, mid, rest, rfl, due, going, mem, rfl⟩

/-- **Where no task can run**, a task has ended exactly if its delay is over and it waits for nothing else. -/
theorem Pursues.ended_iff (h : Pursues v xs task token start r last) (hv : (v.unfold xs).Sound)
    (hstep : (v.unfold xs).clock.step = none) :
    (∃ e ∈ (v.unfold xs).clock.ended, e.task = task) ↔ r.wait = none ∧ start + r.delay ≤ (v.unfold xs).now := by
  constructor
  · rintro ⟨e, he, hid⟩
    obtain ⟨hwait, htick, -⟩ := h.ended_eq hv he hid
    exact ⟨hwait, htick ▸ hv.timely.ended e he⟩
  · rintro ⟨hwait, hle⟩
    cases h with
    | ended mid rest split _ _ _ mem => exact ⟨_, split ▸ mem_ended_later mem rest, rfl⟩
    | underway t mem _ _ place =>
      have hready := Clockwork.step_eq_none.mp hstep t mem
      rw [Clockwork.isReady] at hready
      generalize t.state = state at place hready
      cases place with
      | pausing delay le => exact absurd hle (of_decide_eq_false hready)
      | parked wait | awaiting wait _ _ => rw [hwait] at wait; cases wait

end World

end Orchestra
