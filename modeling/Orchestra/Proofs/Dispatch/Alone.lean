import Orchestra.Proofs.Service.Deeds

/-!
# Orchestra.Proofs.Dispatch.Alone — a fan-out with a world to itself

In such a world nothing is told to hooks and one operation looks at its calls at the end of every tick (`settle_alone`).
Each time that something is due uses up a turn of a task or a deed of the agenda, so time stops moving before patience is
lost, and whoever waits sees everything that ever happens (`passTime_alone`).
-/

namespace Orchestra

/-- The operation after its look at the calls. -/
def Operation.seen (o : Operation) (c : Clockwork) : Operation :=
  match o.stage with
  | .flying f =>
    match f.look c o.token with
    | none => o
    | some outcome => { o with stage := .done (outcome.map .result) c.now }
  | _ => o

theorem Operation.seen_flying {o : Operation} {f : Flight} {c : Clockwork} (hf : o.stage = .flying f) :
    o.seen c =
      match f.look c o.token with
      | none => o
      | some outcome => { o with stage := .done (outcome.map .result) c.now } := by
  rw [seen, hf]

theorem Operation.seen_done {o : Operation} {outcome : Except Fault Answer} {tick : Tick}
    (hd : o.stage = .done outcome tick) (c : Clockwork) : o.seen c = o := by
  rw [seen, hd]

namespace World

/-- A world in which one fan-out is all that is going on. -/
structure Alone (w : World) (o : Operation) : Prop where
  operations : w.operations = [o]
  request : o.request = none
  tellings : w.tellings = []
  stage : (∃ f, o.stage = .flying f) ∨ ∃ outcome tick, o.stage = .done outcome tick
  numbered : w.clock.Numbered
  timely : w.clock.Timely

/-- The world at another tick. -/
def at_ (w : World) (tick : Tick) : World := { w with clock := w.clock.at_ tick }

variable {w : World} {o : Operation} {tick : Tick}

theorem Alone.at_ (h : w.Alone o) (hle : w.now ≤ tick) : (w.at_ tick).Alone o :=
  ⟨h.operations, h.request, h.tellings, h.stage, ⟨h.numbered.nodup, h.numbered.issued⟩, h.timely.at_ hle⟩

theorem Alone.outcome? (h : w.Alone o) : w.outcome? 0 = o.outcome? := by simp [World.outcome?, h.operations]

/-! ### Settling -/

theorem tellAll_of_nil (h : w.tellings = []) : w.tellAll = w := by
  unfold tellAll
  rw [h]
  simp only [List.flatMap_nil, List.foldl_nil, List.filterMap_nil]
  rw [← h]

theorem seen_stage (h : (∃ f, o.stage = .flying f) ∨ ∃ outcome tick, o.stage = .done outcome tick) (c : Clockwork) :
    (∃ f, (o.seen c).stage = .flying f) ∨ ∃ outcome tick, (o.seen c).stage = .done outcome tick := by
  obtain ⟨f, hf⟩ | ⟨outcome, tick, hd⟩ := h
  · rw [Operation.seen_flying hf]
    split
    · exact .inl ⟨f, hf⟩
    · exact .inr ⟨_, _, rfl⟩
  · rw [Operation.seen_done hd]
    exact .inr ⟨outcome, tick, hd⟩

theorem seen_request (c : Clockwork) : (o.seen c).request = o.request := by
  unfold Operation.seen
  split
  · split <;> rfl
  · rfl

theorem resumeFirst_flying {f : Flight} (hops : w.operations = [o]) (hreq : o.request = none)
    (hf : o.stage = .flying f) :
    w.resumeFirst = (f.look w.clock o.token).map fun outcome => w.complete 0 (outcome.map .result) := by
  simp only [resumeFirst, hops, List.zipIdx_cons, List.zipIdx_nil, List.findSome?_cons, List.findSome?_nil, resume, hf,
    hreq]
  cases f.look w.clock o.token <;> rfl

theorem resumeFirst_done {outcome : Except Fault Answer} (hops : w.operations = [o])
    (hd : o.stage = .done outcome tick) : w.resumeFirst = none := by
  simp [resumeFirst, hops, List.zipIdx_cons, resume, hd]

/-- With its operation done the world has only its tasks to run. -/
theorem turn_done {outcome : Except Fault Answer} (hops : w.operations = [o]) (htell : w.tellings = [])
    (hd : o.stage = .done outcome tick) (n : Nat) : turn n w = { w with clock := w.clock.settle } := by
  have htold : ({ w with clock := w.clock.settle } : World).tellAll = { w with clock := w.clock.settle } :=
    tellAll_of_nil htell
  cases n with
  | zero => exact htold
  | succ n =>
    have hnone : ({ w with clock := w.clock.settle } : World).resumeFirst = none := resumeFirst_done hops hd
    simp only [turn, htold, hnone]

/-- Tasks run, and then the operation looks. -/
theorem turn_alone (hops : w.operations = [o]) (hreq : o.request = none) (htell : w.tellings = [])
    (hstage : (∃ f, o.stage = .flying f) ∨ ∃ outcome tick, o.stage = .done outcome tick) :
    turn w.stagesLeft w = { w with clock := w.clock.settle, operations := [o.seen w.clock.settle] } := by
  have hleft : w.stagesLeft = o.stagesLeft := by simp [stagesLeft, hops]
  rw [hleft]
  obtain ⟨f, hf⟩ | ⟨outcome, tick, hd⟩ := hstage
  · have hfour : o.stagesLeft = 3 + 1 := by simp [Operation.stagesLeft, hf]
    have htold : ({ w with clock := w.clock.settle } : World).tellAll = { w with clock := w.clock.settle } :=
      tellAll_of_nil htell
    have hfirst := resumeFirst_flying (w := { w with clock := w.clock.settle }) hops hreq hf
    rw [hfour, Operation.seen_flying hf, turn]
    simp only [htold, hfirst]
    cases f.look w.clock.settle o.token with
    | none => simp only [Option.map_none]; rw [← hops]
    | some outcome =>
      have hdone : ({ w with clock := w.clock.settle } : World).complete 0 (outcome.map .result) =
          { w with
            clock := w.clock.settle
            operations := [{ o with stage := .done (outcome.map .result) w.clock.settle.now }] } := by
        simp [complete, setStage, modifyOperation, hops, now]
      simp only [Option.map_some, hdone]
      rw [turn_done (w := { w with clock := w.clock.settle, operations := [_] }) rfl htell rfl,
        Clockwork.settle_of_step (Clockwork.settle_step _)]
  · rw [turn_done hops htell hd, Operation.seen_done hd, ← hops]

/-- Where nothing is due by now. -/
structure Settled (w : World) : Prop where
  step : w.clock.step = none
  agenda : ∀ d ∈ w.agenda, w.now < d.1

/-- What is left to happen: turns of tasks, and deeds. -/
def pending (w : World) : Nat := w.clock.turns + w.agenda.length

/-- **Settling**: deeds that are due, then tasks, then a look at the calls. -/
theorem settle_alone (h : w.Alone o) :
    ∃ clock, w.clock.Touched clock ∧ w.doDue.clock = clock ∧ w.settle.clock = clock.settle ∧
      w.settle.agenda = w.laterDeeds ∧ w.settle.Alone (o.seen clock.settle) := by
  obtain ⟨clock, ledger, owned, hdue, touched⟩ := doDue_eq w
  have hsettle : w.settle = { w.doDue with clock := clock.settle, operations := [o.seen clock.settle] } := by
    unfold settle
    rw [turn_alone (o := o) (by rw [hdue]; exact h.operations) h.request (by rw [hdue]; exact h.tellings) h.stage, hdue]
  refine ⟨clock, touched, by rw [hdue], by rw [hsettle], by rw [hsettle, hdue], ?_⟩
  rw [hsettle, hdue]
  exact ⟨rfl, (seen_request _).trans h.request, h.tellings, seen_stage h.stage _, (touched.numbered h.numbered).settle,
    (h.timely.within touched.within).within (Clockwork.within_settle _)⟩

theorem within_settle_alone (h : w.Alone o) : w.clock.Within w.settle.clock := by
  obtain ⟨clock, touched, -, hclock, -, -⟩ := settle_alone h
  rw [hclock]
  exact touched.within.trans (Clockwork.within_settle _)

theorem settled_alone (h : w.Alone o) : w.settle.Settled := by
  obtain ⟨clock, touched, -, hclock, hagenda, -⟩ := settle_alone h
  refine ⟨by rw [hclock]; exact Clockwork.settle_step _, fun d hd => ?_⟩
  rw [hagenda] at hd
  have hnow : w.settle.now = w.now := (within_settle_alone h).now
  rw [hnow]
  simpa using (List.mem_filter.mp hd).2

theorem settle_pending_le (h : w.Alone o) : w.settle.pending ≤ w.pending := by
  obtain ⟨clock, touched, -, hclock, hagenda, -⟩ := settle_alone h
  unfold pending
  rw [hclock, hagenda, ← touched.turns]
  exact Nat.add_le_add (Clockwork.settle_turns_le _) (List.length_filter_le _ _)

/-- Something is due: a task can run, or a deed is to be done. -/
def IsDue (w : World) : Prop := (∃ t ∈ w.clock.tasks, w.clock.isReady t = true) ∨ ∃ d ∈ w.agenda, d.1 ≤ w.now

/-- Where something is due settling leaves less to happen. -/
theorem settle_pending_lt (h : w.Alone o) (hdue : w.IsDue) : w.settle.pending < w.pending := by
  obtain ⟨clock, touched, -, hclock, hagenda, -⟩ := settle_alone h
  unfold pending
  rw [hclock, hagenda, ← touched.turns]
  obtain ⟨t, ht, hready⟩ | ⟨d, hd, hle⟩ := hdue
  · refine Nat.add_lt_add_of_lt_of_le ?_ (List.length_filter_le _ _)
    -- what can run still can after the deeds
    have hready' : clock.isReady t = true := by
      unfold Clockwork.isReady at hready ⊢
      split at hready
      · rfl
      · rw [touched.now]; exact hready
      · exact Clockwork.isCancelled_of_append touched.cancelled hready
      · cases hready
    obtain ⟨c', hc'⟩ : ∃ c', clock.step = some c' := by
      rw [← Option.ne_none_iff_exists', ne_eq, Clockwork.step_eq_none]
      intro hno
      rw [hno t (touched.tasks ▸ ht)] at hready'
      cases hready'
    exact Clockwork.settle_turns_lt hc'
  · refine Nat.add_lt_add_of_le_of_lt (Clockwork.settle_turns_le _) ?_
    exact List.length_filter_lt_length_iff_exists.mpr ⟨d, hd, by simpa using hle⟩

/-! ### The next tick -/

/-- The ticks at which tasks and deeds are due. -/
theorem nextDue_alone (h : w.Alone o) {tick : Tick} (hnext : w.nextDue = some tick) :
    ((∃ t ∈ w.clock.tasks, ∃ moves last, t.state = .waiting (.atTick tick) moves last) ∨ ∃ d ∈ w.agenda, d.1 = tick) ∧
      ∀ t ∈ w.clock.tasks, ∀ due moves last, t.state = .waiting (.atTick due) moves last → tick ≤ due := by
  unfold nextDue at hnext
  rw [h.tellings, List.map_nil, List.append_nil] at hnext
  obtain ⟨hmem, hmin⟩ := List.min?_eq_some_iff.mp hnext
  refine ⟨?_, fun t ht due moves last hstate => ?_⟩
  · rcases List.mem_append.mp hmem with hmem | hmem
    · exact .inl (Clockwork.nextDue_eq_some (Option.mem_toList.mp hmem)).1
    · obtain ⟨d, hd, rfl⟩ := List.mem_map.mp hmem
      exact .inr ⟨d, hd, rfl⟩
  · obtain ⟨due', hdue'⟩ : ∃ due', w.clock.nextDue = some due' := by
      rw [← Option.ne_none_iff_exists', ne_eq, Clockwork.nextDue, List.min?_eq_none_iff]
      exact List.ne_nil_of_mem (List.mem_filterMap.mpr ⟨t, ht, by rw [hstate]⟩)
    exact Nat.le_trans (hmin due' (List.mem_append_left _ (by rw [hdue']; simp)))
      ((Clockwork.nextDue_eq_some hdue').2 t ht due moves last hstate)

/-- Once all is settled the next tick lies ahead. -/
theorem lt_nextDue (h : w.Alone o) (hs : w.Settled) (hnext : w.nextDue = some tick) : w.now < tick := by
  obtain ⟨t, ht, moves, last, hstate⟩ | ⟨d, hd, rfl⟩ := (nextDue_alone h hnext).1
  · have hready := Clockwork.step_eq_none.mp hs.step t ht
    rw [Clockwork.isReady, hstate] at hready
    exact Nat.lt_of_not_le (of_decide_eq_false hready)
  · exact hs.agenda d hd

theorem isDue_at (h : w.Alone o) (hnext : w.nextDue = some tick) : (w.at_ tick).IsDue := by
  obtain ⟨t, ht, moves, last, hstate⟩ | ⟨d, hd, rfl⟩ := (nextDue_alone h hnext).1
  · exact .inl ⟨t, ht, by rw [Clockwork.isReady, hstate]; exact decide_eq_true (Nat.le_refl _)⟩
  · exact .inr ⟨d, hd, Nat.le_refl _⟩

end World

end Orchestra
