import Orchestra.Proofs.Dispatch.Launch

/-!
# Orchestra.Proofs.Dispatch.Calling — every provider is called once, in order, in the step in which the fan-out starts

A provider is called when the task that is to call it has its first turn.  The tasks of a fan-out are left alone by
everything else that happens, so the calls that have been made and those that are still to be made are together what the
fan-out asked for (`Launched.calls`), and as soon as no task can run they have all been made.
-/

namespace Orchestra

/-- A provider is called: by which task and when, and with what. -/
structure Call where
  task : Nat
  tick : Tick
  provider : Nat
  kind : Capability
  payload : Payload
  context : Context
  token : Token

/-- The calls that a fan-out asks for, in order of registration. -/
def Brief.calls (b : Brief) (first : Nat) (tick : Tick) (ps : List ProviderRef) : List Call :=
  (ps.zipIdx first).map fun x => ⟨x.2, tick, x.1.index, b.kind, b.payload, b.context, b.token⟩

namespace Clockwork

/-- The call that a task is to make. -/
def call? (tick : Tick) (t : Task) : Option Call :=
  match t.state with
  | .fresh (.call index kind payload context) => some ⟨t.id, tick, index, kind, payload, context, t.token⟩
  | _ => none

/-- The call that the next turn makes, if it makes one. -/
def called? (c : Clockwork) : Option Call := (c.tasks.find? c.isReady).bind (call? c.now)

variable {c c' : Clockwork} {t : Task} {tick : Tick} {q : Nat → Bool}

theorem call?_eq_some {call : Call} (h : call? tick t = some call) :
    call.task = t.id ∧ call.token = t.token ∧ call.tick = tick ∧
      t.state = .fresh (.call call.provider call.kind call.payload call.context) := by
  unfold call? at h
  split at h
  · next hstate => cases h; exact ⟨rfl, rfl, rfl, hstate⟩
  · cases h

/-- The turn in which a call is made begins with the call of the provider. -/
theorem step_of_called {call : Call} (h : c.called? = some call) :
    ∃ t ∈ c.tasks, t.id = call.task ∧ t.token = call.token ∧ call.tick = c.now ∧
      t.state = .fresh (.call call.provider call.kind call.payload call.context) ∧
      c.step = some ((c.without t).begin t (.call call.provider call.kind call.payload call.context)) := by
  obtain ⟨t, hfind, hcall⟩ := Option.bind_eq_some_iff.mp h
  obtain ⟨hid, htoken, htick, hstate⟩ := call?_eq_some hcall
  refine ⟨t, List.mem_of_find?_eq_some hfind, hid.symm, htoken.symm, htick, hstate, step_eq_some.mpr ⟨t, hfind, ?_⟩⟩
  rw [goOn, hstate]

/-- When a task makes its call makes no difference to what the call is. -/
theorem call?_eq (t : Task) (tick tick' : Tick) :
    call? tick t = (call? tick' t).map fun call => { call with tick } := by
  unfold call?
  split <;> rfl

/-- A task that has a call to make can run. -/
theorem call?_of_not_ready (h : c.isReady t = false) : call? tick t = none := by
  unfold call?
  split
  · next hstate =>
    rw [isReady, hstate] at h
    cases h
  · rfl

theorem called?_of_step (h : c.step = none) : c.called? = none := by
  rw [called?, List.find?_eq_none.mpr fun t ht => by simp [step_eq_none.mp h t ht], Option.bind_none]

/-- The calls that are still to be made by the tasks of certain numbers. -/
def toCall (c : Clockwork) (q : Nat → Bool) (tick : Tick) : List Call :=
  (c.tasks.filter fun t => q t.id).filterMap (call? tick)

/-- Where no task can run there is no call left to make. -/
theorem toCall_of_step (h : c.step = none) : c.toCall q tick = [] :=
  List.filterMap_eq_nil_iff.mpr fun t ht =>
    call?_of_not_ready (step_eq_none.mp h t (List.mem_of_mem_filter ht))

/-- The tasks around the one that has its turn, those before it being unable to run. -/
theorem tasks_around (hn : c.Numbered) (hfind : c.tasks.find? c.isReady = some t) :
    ∃ before after, c.tasks = before ++ t :: after ∧ (c.without t).tasks = before ++ after ∧
      ∀ t' ∈ before, c.isReady t' = false := by
  obtain ⟨hready, before, after, htasks, hbefore⟩ := List.find?_eq_some_iff_append.mp hfind
  have hnodup : ((before ++ t :: after).map Task.id).Nodup := htasks ▸ hn.tasks_nodup
  rw [List.map_append, List.map_cons, List.nodup_middle, List.nodup_cons, ← List.map_append] at hnodup
  refine ⟨before, after, htasks, ?_, fun t' ht' => by simpa using hbefore t' ht'⟩
  show c.tasks.filter (·.id != t.id) = before ++ after
  have hother : ∀ t' ∈ before ++ after, (t'.id != t.id) = true := fun t' ht' =>
    bne_iff_ne.mpr fun hid => hnodup.1 (hid ▸ List.mem_map_of_mem ht')
  rw [htasks, List.filter_append, List.filter_cons_of_neg (by simp), ← List.filter_append,
    List.filter_eq_self.mpr hother]

/-- What a task becomes in its turn has no call to make. -/
theorem toCall_goOn (t : Task) : (c.goOn t).toCall q tick = (c.without t).toCall q tick := by
  unfold toCall
  obtain ⟨o, hwent, -⟩ | ⟨wake, moves, last, -, hwent, -⟩ := (turn_goOn (c := c) t).went
  · rw [hwent]
  · have hnone : ([{ t with state := .waiting wake moves last }].filter fun t => q t.id).filterMap (call? tick) = [] := by
      refine List.filterMap_eq_nil_iff.mpr fun t' ht' => ?_
      rw [List.mem_singleton.mp (List.mem_of_mem_filter ht')]
      rfl
    rw [hwent, List.filter_append, List.filterMap_append, hnone, List.append_nil]

/-- **A turn** makes the first call that is left to make, or none of these. -/
theorem toCall_step (hn : c.Numbered) (hstep : c.step = some c') (hnow : c.toCall q tick ≠ [] → c.now = tick) :
    (c.called?.toList.filter fun call => q call.task) ++ c'.toCall q tick = c.toCall q tick := by
  obtain ⟨t, hfind, rfl⟩ := step_eq_some.mp hstep
  obtain ⟨before, after, htasks, hwithout, hbefore⟩ := tasks_around hn hfind
  have hnobefore : (before.filter fun t => q t.id).filterMap (call? tick) = [] :=
    List.filterMap_eq_nil_iff.mpr fun t' ht' => call?_of_not_ready (hbefore t' (List.mem_of_mem_filter ht'))
  have hleft : (c.without t).toCall q tick = (after.filter fun t => q t.id).filterMap (call? tick) := by
    rw [toCall, hwithout, List.filter_append, List.filterMap_append, hnobefore, List.nil_append]
  have hwas : c.toCall q tick =
      ([t].filter fun t => q t.id).filterMap (call? tick) ++ (c.without t).toCall q tick := by
    rw [hleft, ← List.filterMap_append, ← List.filter_append, List.singleton_append, toCall, htasks, List.filter_append,
      List.filterMap_append, hnobefore, List.nil_append]
  have hcalled : c.called? = call? c.now t := by rw [called?, hfind, Option.bind_some]
  rw [toCall_goOn, hcalled, hwas]
  rw [hwas] at hnow
  congr 1
  cases hcall : call? tick t with
  | none =>
    have hnone : call? c.now t = none := by rw [call?_eq t c.now tick, hcall]; rfl
    cases hq : q t.id <;> simp [hnone, hcall, hq]
  | some call =>
    have hid := (call?_eq_some hcall).1
    cases hq : q t.id with
    | false => simp [call?_eq t c.now tick, hcall, hid, hq]
    | true =>
      have htick : c.now = tick := hnow (by simp [hq, hcall])
      simp [htick, hcall, hid, hq]

end Clockwork

namespace World

variable {v w : World} {b : Brief} {ps : List ProviderRef}

/-- The calls that are made while all this happens, in order. -/
def calls (w : World) (xs : List Happening) : List Call := w.inTurns Clockwork.called? xs

/-- The numbers that tasks for the calls of these providers are given. -/
def tasksFor (w : World) (ps : List ProviderRef) : List Nat := List.range' w.clock.nextTask ps.length

/-- A fan-out has just started in a sound world, and was not refused. -/
structure Started (w v : World) (b : Brief) (ps : List ProviderRef) : Prop where
  sound : w.Sound
  occurs : ∃ x, w.starts x = some b ∧ v = w.occur x
  invites : w.invites b = .ok ps

theorem Started.launched (h : Started w v b ps) : Launched w v b ps := by
  obtain ⟨x, hb, rfl⟩ := h.occurs
  have hstarts := occur_starts hb
  unfold Starts at hstarts
  rw [h.invites] at hstarts
  exact hstarts

theorem Started.works (h : Started w v b ps) : ∃ stopped, Works (some b.op) stopped w v ∧
    ∀ task, stopped = some task → w.Resolves task := by
  obtain ⟨x, hb, rfl⟩ := h.occurs
  have hx : ∀ c, x ≠ .clock c := by rintro c rfl; cases hb
  obtain ⟨stopped, works, hstopped⟩ := occur_works w x hx
  rw [(atWork_of_starts hb).2] at works
  refine ⟨stopped, works, fun task ht => ?_⟩
  obtain ⟨op, o, context, ask, -, ho, hs⟩ := hstopped task ht
  exact ⟨op, o, context, ask, ho, hs⟩

theorem Started.after (h : Started w v b ps) : v.Sound := by
  obtain ⟨x, hb, rfl⟩ := h.occurs
  have hhappen : w.happen (.occurs x) = w.occur x := by rw [happen, if_pos (atWork_of_starts hb).1]
  exact hhappen ▸ (happen_goes w (.occurs x)).sound h.sound

/-- No operation looks up its workspace in a task of the fan-out. -/
theorem Started.spares (h : Started w v b ps) {i : Nat} (hi : i ∈ w.tasksFor ps) : v.Spares i := by
  obtain ⟨hlo, hhi⟩ := List.mem_range'_1.mp hi
  refine ⟨by rw [h.launched.clock]; exact hhi, ?_⟩
  rintro ⟨j, o, context, ask, ho, hs⟩
  obtain ⟨stopped, works, -⟩ := h.works
  obtain ⟨o', ho', hs'⟩ | ⟨hj, -, -⟩ := works.resolving j o context ask i ho hs
  · exact Nat.not_le_of_lt (h.sound.resolving i ⟨j, o', context, ask, ho', hs'⟩) hlo
  · cases Option.some.inj hj
    obtain ⟨o', ho', -, -, hflying⟩ := h.launched.operation
    rw [ho] at ho'
    rw [← Option.some.inj ho', hs] at hflying
    cases hflying

/-- When a fan-out has started, all its calls are to be made. -/
theorem Started.toCall (h : Started w v b ps) :
    v.clock.toCall (· ∈ w.tasksFor ps) w.now = b.calls w.clock.nextTask w.now ps := by
  have hold : w.clock.tasks.filter (fun t => t.id ∈ w.tasksFor ps) = [] := by
    refine List.filter_eq_nil_iff.mpr fun t ht hmem => ?_
    have hlt := h.sound.numbered.issued t.id (List.mem_append_left _ (List.mem_map_of_mem ht))
    exact Nat.not_le_of_lt hlt (List.mem_range'_1.mp (of_decide_eq_true hmem)).1
  let new := (ps.zipIdx w.clock.nextTask).map fun x =>
    (⟨x.2, b.token, .fresh (.call x.1.index b.kind b.payload b.context)⟩ : Task)
  have hnew : new.filter (fun t => t.id ∈ w.tasksFor ps) = new := by
    refine List.filter_eq_self.mpr fun t ht => decide_eq_true ?_
    obtain ⟨x, hx, rfl⟩ := List.mem_map.mp ht
    unfold tasksFor
    rw [← List.zipIdx_map_snd]
    exact List.mem_map_of_mem hx
  have htasks : v.clock.tasks = w.clock.tasks ++ new := by rw [h.launched.clock]; rfl
  rw [Clockwork.toCall, htasks, List.filter_append, hold, List.nil_append, hnew, List.filterMap_map]
  exact congrFun List.filterMap_eq_map' _

/-- **What has been called and what is still to be called** is together what was asked for, and time stands still until
everything has been called. -/
theorem Started.calls (h : Started w v b ps) (xs : List Happening) :
    ((v.calls xs).filter (·.task ∈ w.tasksFor ps) ++ (v.unfold xs).clock.toCall (· ∈ w.tasksFor ps) w.now =
      b.calls w.clock.nextTask w.now ps) ∧
    ((v.unfold xs).clock.toCall (· ∈ w.tasksFor ps) w.now ≠ [] → (v.unfold xs).now = w.now) := by
  induction xs using List.reverseRecOn with
  | nil =>
    refine ⟨by rw [unfold_nil, h.toCall]; rfl, fun _ => ?_⟩
    show v.clock.now = w.clock.now
    rw [h.launched.clock]
    rfl
  | append_singleton xs x ih =>
    obtain ⟨hmade, hnow⟩ := ih
    have hsound := h.after.unfold xs
    have hspares : ∀ i, Decidable.decide (i ∈ w.tasksFor ps) = true → (v.unfold xs).Spares i := fun i hi =>
      (h.spares (of_decide_eq_true hi)).unfold xs
    rw [unfold_concat, World.calls, inTurns_concat, ← World.calls, List.filter_append, List.append_assoc]
    have hgoes := happen_goes (v.unfold xs) x
    generalize (v.unfold xs).happen x = u' at hgoes ⊢
    cases hgoes with
    | works stopped works aborted idle =>
      have hsame : u'.clock.toCall (· ∈ w.tasksFor ps) w.now = (v.unfold xs).clock.toCall (· ∈ w.tasksFor ps) w.now := by
        unfold Clockwork.toCall
        rw [works.filter (resolves_of_aborted aborted) hspares]
      have hnone : (v.unfold xs).showing Clockwork.called? x = none :=
        showing_eq_none fun hx => Clockwork.called?_of_step (idle hx)
      rw [hsame, hnone]
      exact ⟨hmade, fun hleft => works.clock.now.trans (hnow hleft)⟩
    | turn step =>
      have hmakes := Clockwork.toCall_step (q := (· ∈ w.tasksFor ps)) hsound.numbered step hnow
      refine ⟨by rw [← hmade, ← hmakes]; rfl, fun hleft => (Clockwork.within_step step).now.trans (hnow ?_)⟩
      rw [← hmakes]
      exact fun hnil => hleft (List.append_eq_nil_iff.mp hnil).2
    | pass step _ _ _ =>
      have hnone : (v.unfold xs).clock.toCall (· ∈ w.tasksFor ps) w.now = [] := Clockwork.toCall_of_step step
      rw [hnone] at hmade
      exact ⟨by rw [← hmade]; exact congrArg _ hnone, fun hleft => absurd hnone hleft⟩

end World

end Orchestra
