import Orchestra.Proofs.Runs.Frame

/-!
# Orchestra.Proofs.Runs.Rest — a world that has settled is at rest

An operation that gets on has fewer stages left (`resume_lt`), so the turns that `settle` takes are enough: afterwards no
task can run, no operation can get on, and nothing is due by now (`settle_rest`).
-/

namespace Orchestra

namespace World

variable {u v w : World} {op : Nat} {bound : Nat}

/-! ### Stages run out -/

/-- One operation changed, and has at most so many stages left. -/
def Advances (op bound : Nat) (w v : World) : Prop :=
  ∃ f : Operation → Operation, v.operations = w.operations.modify op f ∧ ∀ o, (f o).stagesLeft ≤ bound

theorem Advances.mono {bound' : Nat} (h : Advances op bound w v) (hle : bound ≤ bound') : Advances op bound' w v := by
  obtain ⟨f, hf, hbound⟩ := h
  exact ⟨f, hf, fun o => Nat.le_trans (hbound o) hle⟩

theorem advances_setStage (w : World) (op : Nat) (stage : Stage) :
    Advances op (Operation.stagesLeft ⟨.none, none, none, stage⟩) w (w.setStage op stage) :=
  ⟨_, rfl, fun _ => Nat.le_refl _⟩

theorem Passes.advances {assistant : Option AssistantRecord} {outcome : Except Fault Result}
    (h : Passes op assistant outcome bound w v) : Advances op bound w v := by
  obtain ⟨stage, hstage, -, hbound⟩ := h.stage
  exact ⟨_, hstage, hbound⟩

theorem advances_complete (w : World) (op : Nat) (answer : Except Fault Answer) :
    Advances op 0 w (w.complete op answer) := advances_setStage w op (.done answer w.now)

theorem advances_send (w : World) (op : Nat) (assistant : Option AssistantRecord) (token : Token) (context : Context)
    (ask : Ask) : Advances op 4 w (w.send op assistant token context ask) := by
  have hrequest : ∀ operation kind payload context, Advances op 4 w (w.request op assistant token operation kind payload
      context) := by
    intro operation kind payload context
    have hasked : ∀ {v : World} {n : Nat}, Advances op n (w.asked op operation kind) v → Advances op n w v := by
      rintro v n ⟨f, hf, hbound⟩
      refine ⟨f ∘ fun o => { o with request := some (w.newRequest operation kind).2 }, ?_, fun o => hbound _⟩
      rw [hf, ← List.modify_modify_eq]
      rfl
    refine hasked ?_
    cases h : FanOut.invited w.service.ledger.registry kind (w.isCancelled token) with
    | error f =>
      rw [request_refused h]
      exact (passes_decide _ op assistant _ _).advances.mono (by decide)
    | ok ps =>
      rw [request_launched h]
      exact advances_setStage _ op _
  cases ask with
  | context => exact (advances_complete w op _).mono (Nat.zero_le _)
  | chat message => exact hrequest _ _ _ _
  | edit path range instruction options => exact hrequest _ _ _ _

theorem sum_modify_lt {f : Operation → Operation} {ops : List Operation} {o : Operation} (ho : ops[op]? = some o)
    (hlt : (f o).stagesLeft < o.stagesLeft) :
    (ops.modify op f).foldr (fun o n => o.stagesLeft + n) 0 < ops.foldr (fun o n => o.stagesLeft + n) 0 := by
  induction ops generalizing op with
  | nil => cases ho
  | cons o' ops ih =>
    cases op with
    | zero =>
      cases ho
      exact Nat.add_lt_add_right hlt _
    | succ op => exact Nat.add_lt_add_left (ih ho) _

/-- **An operation that gets on** has fewer stages left. -/
theorem resume_lt {o : Operation} (ho : w.operations[op]? = some o) (h : w.resume op o = some v) :
    v.stagesLeft < w.stagesLeft := by
  have hless : ∀ {bound : Nat}, Advances op bound w v → bound < o.stagesLeft → v.stagesLeft < w.stagesLeft := by
    rintro bound ⟨f, hf, hbound⟩ hlt
    unfold stagesLeft
    rw [hf]
    exact sum_modify_lt ho (Nat.lt_of_le_of_lt (hbound o) hlt)
  cases resume_resumes h with
  | cutShort stage _ =>
    have hleft : o.stagesLeft = 5 := by rw [Operation.stagesLeft, stage]
    exact hless (passes_conclude w op _ _).advances (by omega)
  | sends stage =>
    have hleft : o.stagesLeft = 5 := by rw [Operation.stagesLeft, stage]
    exact hless (advances_send w op _ _ _ _) (by omega)
  | lands stage _ _ =>
    have hleft : o.stagesLeft = 4 := by rw [Operation.stagesLeft, stage]
    exact hless (advances_complete w op _) (by omega)
  | decides stage _ _ =>
    have hleft : o.stagesLeft = 4 := by rw [Operation.stagesLeft, stage]
    exact hless (passes_decide w op _ _ _).advances (by omega)
  | @relays telling queue outcome stage =>
    have hleft : o.stagesLeft = queue.length + 1 := by rw [Operation.stagesLeft, stage]
    exact hless (passes_relay w op _ _ _).advances (by omega)

theorem resumeFirst_eq_some (h : w.resumeFirst = some v) :
    ∃ op o, w.operations[op]? = some o ∧ w.resume op o = some v := by
  obtain ⟨⟨o, op⟩, hmem, h⟩ := List.exists_of_findSome?_eq_some h
  exact ⟨op, o, List.mem_zipIdx_iff_getElem?.mp hmem, h⟩

theorem resumeFirst_eq_none : w.resumeFirst = none ↔ ∀ (op : Nat) o, w.operations[op]? = some o → w.resume op o = none := by
  unfold resumeFirst
  rw [List.findSome?_eq_none_iff]
  constructor
  · exact fun h op o ho => h (o, op) (List.mem_zipIdx_iff_getElem?.mpr ho)
  · exact fun h x hx => h x.2 x.1 (List.mem_zipIdx_iff_getElem?.mp hx)

theorem resumeFirst_of_stagesLeft (h : w.stagesLeft = 0) : w.resumeFirst = none := by
  rw [resumeFirst_eq_none]
  intro op o ho
  rw [Option.eq_none_iff_forall_ne_some]
  intro v hv
  have := resume_lt ho hv
  omega

/-! ### Settling -/

/-- The service at rest: no task can run, no operation can get on, and nothing is due by now. -/
structure AtRest (w : World) : Prop where
  step : w.clock.step = none
  resume : w.resumeFirst = none
  tellings : ∀ t ∈ w.tellings, w.now < t.due
  agenda : ∀ d ∈ w.agenda, w.now < d.1

theorem step_journal (c : Clockwork) (journal : List Entry) :
    ({ c with journal } : Clockwork).step = none ↔ c.step = none := by
  rw [Clockwork.step_eq_none, Clockwork.step_eq_none]
  rfl

theorem Told.step (h : Told w v) : v.clock.step = none ↔ w.clock.step = none := by
  obtain ⟨journal, hclock⟩ := h.clock
  rw [hclock, step_journal]

theorem Told.now (h : Told w v) : v.now = w.now := by
  obtain ⟨journal, hclock⟩ := h.clock
  show v.clock.now = w.clock.now
  rw [hclock]

/-- After hooks have had their turn, those that are still being told are due later. -/
theorem tellAll_due (w : World) : ∀ t ∈ w.tellAll.tellings, w.tellAll.now < t.due := by
  intro t ht
  rw [(told_tellAll w).now]
  obtain ⟨t', -, ht'⟩ := List.mem_filterMap.mp ht
  unfold Telling.after? at ht'
  split at ht'
  · cases ht'
  · next hle =>
    cases ht'
    exact Nat.lt_of_not_le hle

/-- Tasks and hooks have had their turn. -/
def ran (w : World) : World := { w with clock := w.clock.settle }.tellAll

theorem ran_told (w : World) : Told { w with clock := w.clock.settle } w.ran := told_tellAll _

theorem ran_step (w : World) : w.ran.clock.step = none := w.ran_told.step.mpr w.clock.settle_step

theorem ran_now (w : World) : w.ran.now = w.now := w.ran_told.now.trans (Clockwork.within_settle w.clock).now

theorem ran_stagesLeft (w : World) : w.ran.stagesLeft = w.stagesLeft := by
  unfold stagesLeft
  rw [w.ran_told.operations]

theorem turn_succ (n : Nat) (w : World) : turn (n + 1) w =
    match w.ran.resumeFirst with
    | none => w.ran
    | some w' => turn n w' := rfl

/-- With as many turns as there are stages left the world comes to rest. -/
theorem turn_rest {n : Nat} (hn : w.stagesLeft ≤ n) (hagenda : ∀ d ∈ w.agenda, w.now < d.1) :
    (turn n w).AtRest ∧ (turn n w).now = w.now := by
  induction n generalizing w with
  | zero =>
    refine ⟨⟨w.ran_step, resumeFirst_of_stagesLeft (w.ran_stagesLeft.trans (Nat.le_zero.mp hn)), tellAll_due _, ?_⟩,
      w.ran_now⟩
    intro d hd
    exact w.ran_now.symm ▸ hagenda d (w.ran_told.agenda ▸ hd)
  | succ n ih =>
    have hagenda' : ∀ d ∈ w.ran.agenda, w.ran.now < d.1 := fun d hd =>
      w.ran_now.symm ▸ hagenda d (w.ran_told.agenda ▸ hd)
    rw [turn_succ]
    cases hr : w.ran.resumeFirst with
    | none => exact ⟨⟨w.ran_step, hr, tellAll_due _, hagenda'⟩, w.ran_now⟩
    | some v =>
      obtain ⟨op, o, ho, hv⟩ := resumeFirst_eq_some hr
      have hworks := works_resume hv
      have hnow : v.now = w.ran.now := hworks.clock.now
      have hlt := resume_lt ho hv
      rw [ran_stagesLeft] at hlt
      obtain ⟨hrest, htick⟩ := ih (w := v) (by omega) fun d hd => hnow ▸ hagenda' d (hworks.agenda d hd)
      exact ⟨hrest, htick.trans (hnow.trans w.ran_now)⟩

/-- **Once settled, a world is at rest.** -/
theorem settle_rest (w : World) : w.settle.AtRest := by
  obtain ⟨clock, ledger, owned, hdue, touched⟩ := doDue_eq w
  refine (turn_rest (Nat.le_refl _) fun d hd => ?_).1
  have hnow : w.doDue.now = w.now := by
    rw [hdue]
    exact touched.now
  rw [hdue] at hd
  rw [hnow]
  simpa using (List.mem_filter.mp hd).2

/-- What every part of settling keeps, settling keeps. -/
theorem settle_induction {P : World → Prop} (h : P w.doDue) (hran : ∀ u, P u → P u.ran)
    (hresume : ∀ u v op o, P u → u.operations[op]? = some o → u.resume op o = some v → P v) : P w.settle := by
  have hturn : ∀ n u, P u → P (turn n u) := by
    intro n
    induction n with
    | zero => exact fun u hu => hran u hu
    | succ n ih =>
      intro u hu
      rw [turn_succ]
      cases hr : u.ran.resumeFirst with
      | none => exact hran u hu
      | some v =>
        obtain ⟨op, o, ho, hv⟩ := resumeFirst_eq_some hr
        exact ih v (hresume _ _ op o (hran u hu) ho hv)
  exact hturn _ _ h

theorem settle_now (w : World) : w.settle.now = w.now := by
  refine settle_induction (P := fun u => u.now = w.now) ?_ (fun u hu => u.ran_now.trans hu) fun u v op o hu _ hv =>
    Eq.trans (works_resume hv).clock.now hu
  obtain ⟨clock, ledger, owned, hdue, touched⟩ := doDue_eq w
  rw [hdue]
  exact touched.now

/-- Time is to move from rest to a tick that lies ahead, and not past one for which a task waits. -/
theorem AtRest.nextDue (h : w.AtRest) {tick : Tick} (hnext : w.nextDue = some tick) :
    w.now < tick ∧ ∀ due, w.clock.nextDue = some due → tick ≤ due := by
  obtain ⟨hmem, hmin⟩ := List.min?_eq_some_iff.mp hnext
  refine ⟨?_, fun due hdue => hmin due ?_⟩
  · rcases List.mem_append.mp hmem with hmem | hmem
    · rcases List.mem_append.mp hmem with hmem | hmem
      · obtain ⟨⟨t, ht, moves, last, hstate⟩, -⟩ := Clockwork.nextDue_eq_some (Option.mem_toList.mp hmem)
        have hready := Clockwork.step_eq_none.mp h.step t ht
        rw [Clockwork.isReady, hstate] at hready
        exact Nat.lt_of_not_le (of_decide_eq_false hready)
      · obtain ⟨t, ht, rfl⟩ := List.mem_map.mp hmem
        exact h.tellings t ht
    · obtain ⟨d, hd, rfl⟩ := List.mem_map.mp hmem
      exact h.agenda d hd
  · exact List.mem_append_left _ (List.mem_append_left _ (by rw [hdue]; simp))

end World

end Orchestra
