import Orchestra.Proofs.Dispatch.Watch

/-!
# Orchestra.Proofs.Dispatch.Verdict — a fan-out is decided by what it goes by

A look sees what is decided by what has been noted until then (`Faithful.look_eq`).  Nothing was decided at an earlier
moment, because the fan-out looks before time passes and before a moment ends at which anything could be seen; and what it
has seen stands (`Bears.next`).
-/

namespace Orchestra

namespace Watch

open World (Goes)

variable {g : Watch} {op : Nat} {o : Operation} {f : Flight} {x : Happening} {token : Token}

/-- Nothing is decided at a moment that has not come. -/
theorem Faithful.decision_le (h : g.Faithful token f) (hne : f.calls ≠ []) {d : Nat × Except Fault Result}
    (hd : g.decision f = some d) : d.1 ≤ g.moment := by
  rcases FanOut.decision_tick hd with hfired | hclosed
  · exact h.firedBy d.1 hfired
  · have hcs : FanOut.coursesOf f.calls g.answer ≠ [] := fun hnil => hne (List.map_eq_nil_iff.mp hnil)
    obtain ⟨c, hc, y, hy⟩ := FanOut.exists_of_closedForm hcs hclosed
    obtain ⟨call, -, rfl⟩ := List.mem_map.mp hc
    exact h.answeredBy call.2 (d.1, y) hy

/-- As long as the token is not cancelled, the courses of the calls decide. -/
theorem Faithful.decision_unfired (h : g.Faithful token f) (hfired : g.fired = none) :
    g.decision f =
      (FanOut.closedForm f.kind f.policy (g.world.clock.courses f.calls)).map fun d => (2 * d.1, d.2) := by
  have hcourses : FanOut.coursesOf f.calls g.answer = FanOut.retimed (2 * ·) (g.world.clock.courses f.calls) := by
    unfold Clockwork.courses FanOut.coursesOf FanOut.retimed
    rw [List.map_map]
    exact List.map_congr_left fun call hcall => by
      rw [h.early hfired call.2 (List.mem_map_of_mem hcall)]
      rfl
  have hmono : StrictMono fun t : Nat => 2 * t := fun a b hab => Nat.mul_lt_mul_of_pos_left hab Nat.zero_lt_two
  rw [decision, hfired, hcourses, FanOut.closedForm_retimed hmono rfl]
  rfl

theorem decision_le_cancelled {kind : Capability} {m : Nat} {decided : Option (Nat × Except Fault Result)}
    {d : Nat × Except Fault Result} (hd : FanOut.decision kind (some m) decided = some d) : d.1 ≤ m := by
  rcases decided with _ | ⟨t, outcome⟩
  · cases hd; exact Nat.le_refl _
  · by_cases hle : m ≤ t
    · rw [FanOut.decision, if_pos hle] at hd
      cases hd; exact Nat.le_refl _
    · rw [FanOut.decision, if_neg hle] at hd
      cases hd; exact Nat.le_of_not_le hle

/-- **A look** sees what is decided by what is noted, if nothing was decided at a moment before. -/
theorem Faithful.look_eq (h : g.Faithful token f) (hnow : ∀ d, g.decision f = some d → d.1 = g.moment) :
    f.look g.world.clock token = (g.decision f).map Prod.snd := by
  have hcancelled : (g.world.clock.cancelledAt? token).isSome = g.fired.isSome := by
    rw [← Clockwork.isCancelled_eq]
    exact h.fired.symm
  rw [Clockwork.look_eq h.sound.timely h.sound.numbered, hcancelled]
  cases hfired : g.fired with
  | none =>
    rw [h.decision_unfired hfired, Option.map_map]
    rfl
  | some m =>
    have hfirst : ∀ d, FanOut.closedForm f.kind f.policy (FanOut.coursesOf f.calls g.answer) = some d → m ≤ d.1 := by
      intro d hd
      by_contra hlt
      have hdecides : g.decision f = some d := by
        rw [decision, hd]
        refine FanOut.decision_of_late fun c hc => ?_
        rw [hfired] at hc
        exact Option.some.inj hc ▸ Nat.lt_of_not_le hlt
      exact hlt (hnow d hdecides ▸ h.firedBy m hfired)
    rw [decision, hfired, FanOut.decision_of_cancelled hfirst]
    rfl

/-- Where nothing is cancelled and nothing ends, what is noted decides as before. -/
theorem Faithful.decision_same (h : g.Faithful token f)
    (hcancelled : (g.next op token x).world.isCancelled token = g.world.isCancelled token)
    (hended : (g.next op token x).world.clock.ended = g.world.clock.ended) :
    (g.next op token x).fired = g.fired ∧ (g.next op token x).decision f = g.decision f := by
  have hfired : (g.next op token x).fired = g.fired := by
    rw [next_fired, hcancelled, ← h.fired]
    cases g.fired <;> rfl
  have hanswer : ∀ task ∈ f.tasks, (g.next op token x).answer task = g.answer task := by
    intro task htask
    have hanswered := h.answered task htask
    rw [next_answer, Clockwork.course_eq hended]
    cases ha : g.answer task with
    | some y => rfl
    | none =>
      rw [ha, Option.map_none, eq_comm, Option.map_eq_none_iff] at hanswered
      rw [hanswered]
      rfl
  refine ⟨hfired, ?_⟩
  unfold decision FanOut.coursesOf
  rw [hfired, List.map_congr_left fun call hcall => congrArg (Prod.mk call.1)
    (hanswer call.2 (List.mem_map_of_mem hcall))]

/-- What is noted bears out what the operation ends with: as long as it does not, nothing was decided at a moment that is
over; and what it ends with was decided before, by what was noted, or by the cancellation. -/
def Bears (g : Watch) (f : Flight) : Option (Except Fault Result) → Prop
  | none => ∀ d, g.decision f = some d → d.1 = g.moment
  | some outcome => ∃ m, g.decision f = some (m, outcome) ∧ (m < g.moment ∨ m ≤ g.moment ∧ g.fired = some m)

/-- What was decided stays so. -/
theorem Bears.next_some {outcome : Except Fault Result} (h : g.Bears f (some outcome)) (hne : f.calls ≠ []) (op : Nat)
    (token : Token) (x : Happening) : (g.next op token x).Bears f (some outcome) := by
  obtain ⟨m, hd, hle⟩ := h
  have hmoment := g.moment_le op token x
  have hle' : m < (g.next op token x).moment ∨
      m ≤ (g.next op token x).moment ∧ g.fired = some m ∧ (g.next op token x).fired = some m := by
    refine hle.imp (Nat.lt_of_lt_of_le · hmoment) fun ⟨hle, hfired⟩ => ⟨Nat.le_trans hle hmoment, hfired, ?_⟩
    rw [next_fired, hfired]
    rfl
  refine ⟨m, ?_, hle'.imp id fun h => ⟨h.1, h.2.2⟩⟩
  exact FanOut.decision_stands hd hle' (fun t ht => (next_upTo ht).1) fun t ht =>
    closedForm_congr hne fun task _ => (next_upTo ht).2 task

/-- As long as a moment lasts, nothing is decided at one that is over. -/
theorem Bears.next_none (h : g.Bears f none) (hfaithful : g.Faithful token f) (hne : f.calls ≠ [])
    (hmoment : (g.next op token x).moment = g.moment) : (g.next op token x).Bears f none := by
  intro d hd
  rcases Nat.lt_or_eq_of_le ((hfaithful.next op x).decision_le hne hd) with hlt | heq
  · have hbefore : g.decision f = some d := FanOut.decision_before hd hlt (fun t ht => (next_upTo ht).1) fun t ht =>
      closedForm_congr hne fun task _ => (next_upTo ht).2 task
    rw [h d hbefore, hmoment]
  · exact heq

/-- What a look sees was decided before it. -/
theorem Bears.look (h : g.Bears f none) (hfaithful : g.Faithful token f)
    (haside : World.Aside g.world (g.next op token x).world) (hlooked : looks op g.world x = true) :
    (g.next op token x).Bears f (f.look g.world.clock token) := by
  obtain ⟨journal, hclock⟩ := haside
  have hcancelled : (g.next op token x).world.isCancelled token = g.world.isCancelled token := by
    unfold World.isCancelled
    rw [hclock]
    rfl
  obtain ⟨hfired, hdecision⟩ := hfaithful.decision_same hcancelled (by rw [hclock])
  have hmoment : (g.next op token x).moment = 2 * g.world.now + 1 := by
    have hnow : (g.next op token x).world.now = g.world.now := by
      unfold World.now
      rw [hclock]
    unfold moment
    rw [next_looked, hnow, hlooked, Bool.or_true, beq_self_eq_true]
    rfl
  have hbefore := g.moment_le op token x
  rw [hfaithful.look_eq h]
  cases hd : g.decision f with
  | none =>
    intro d hd'
    rw [hdecision, hd] at hd'
    cases hd'
  | some d =>
    have hnow := h d hd
    refine ⟨d.1, hdecision.trans hd, ?_⟩
    cases hf : g.fired with
    | some m =>
      rw [decision, hf] at hd
      have heq : d.1 = m := Nat.le_antisymm (decision_le_cancelled hd) (hnow ▸ hfaithful.firedBy m hf)
      exact .inr ⟨hnow ▸ hbefore, hfired.trans (hf.trans (congrArg some heq.symm))⟩
    | none =>
      rw [hfaithful.decision_unfired hf, Option.map_eq_some_iff] at hd
      obtain ⟨y, -, rfl⟩ := hd
      -- what the calls decide is decided at an even moment, and from the look on moments are odd
      refine .inl (Nat.lt_of_le_of_ne (hnow ▸ hbefore) ?_)
      rw [hmoment]
      dsimp only
      omega

/-- Where nothing is left to do at a tick, nothing is decided. -/
theorem Bears.rest (h : g.Bears f none) (hfaithful : g.Faithful o.token f) (hstands : g.world.Stands op o none)
    (hs : o.stage = .flying f) (hrest : g.world.resumeFirst = none) : g.decision f = none := by
  obtain ⟨stage, ho, rfl⟩ := hstands
  have hnone := World.resumeFirst_eq_none.mp hrest op _ ho
  rw [World.resume] at hnone
  simp only [hs] at hnone
  have hlook := Option.map_eq_none_iff.mp hnone
  rw [hfaithful.look_eq h] at hlook
  exact Option.map_eq_none_iff.mp hlook

/-- Time passes only where nothing is decided. -/
theorem Bears.pass (h : g.Bears f none) (hfaithful : g.Faithful o.token f) (hstands : g.world.Stands op o none)
    (hs : o.stage = .flying f) (hnow : (g.next op o.token x).world.now ≠ g.world.now) :
    (g.next op o.token x).Bears f none := by
  have hgoes : Goes g.world x (g.next op o.token x).world := World.happen_goes g.world x
  generalize hv : (g.next op o.token x).world = v at hgoes hnow
  cases hgoes with
  | works stopped works _ _ => exact absurd works.clock.now hnow
  | turn step => exact absurd (Clockwork.within_step step).now hnow
  | @pass tick step rest le due =>
    have hcancelled : (g.next op o.token (.pass tick)).world.isCancelled o.token = g.world.isCancelled o.token := by
      rw [hv]
      rfl
    have hended : (g.next op o.token (.pass tick)).world.clock.ended = g.world.clock.ended := by
      rw [hv]
      rfl
    intro d hd
    rw [(hfaithful.decision_same hcancelled hended).2, h.rest hfaithful hstands hs rest] at hd
    cases hd

/-- Who does not look and is not aborted stands as before. -/
theorem stands_next {d : Option (Except Fault Result)} (hstands : g.world.Stands op o d)
    (hlooks : looks op g.world x = false) (hx : x ≠ .occurs (.abort op)) :
    (g.next op o.token x).world.Stands op o d := by
  by_cases hwork : g.world.atWork x = some op
  · obtain rfl : x = .occurs (.resume op) := (World.atWork_eq_some hstands.lt hwork).resolve_right hx
    have hnot : ¬ g.world.mayOccur (.resume op) = true := by
      intro hmay
      rw [looks, beq_self_eq_true, Bool.true_and] at hlooks
      exact Bool.false_ne_true (hlooks.symm.trans hmay)
    rw [next_world, World.happen, if_neg hnot]
    exact hstands
  · exact hstands.happen hwork

/-- **Whatever happens**, other than that the operation is aborted, what is noted bears out what it ends with. -/
theorem Bears.next {d : Option (Except Fault Result)} (h : g.Bears f d) (hfaithful : g.Faithful o.token f)
    (hstands : g.world.Stands op o d) (hs : o.stage = .flying f) (hbare : o.request = none → o.assistant = none)
    (hne : f.calls ≠ []) (hx : x ≠ .occurs (.abort op)) :
    ∃ d', (g.next op o.token x).world.Stands op o d' ∧ (g.next op o.token x).Bears f d' := by
  by_cases hlooks : looks op g.world x = true
  · obtain ⟨rfl, hstep⟩ : x = .occurs (.resume op) ∧ g.world.clock.step.isNone = true := by
      unfold looks at hlooks
      split at hlooks
      · rw [Bool.and_eq_true, beq_iff_eq] at hlooks
        exact ⟨by rw [hlooks.1], hlooks.2⟩
      · cases hlooks
    have hoccur : (g.next op o.token (.occurs (.resume op))).world = g.world.occur (.resume op) := if_pos hstep
    obtain ⟨hresume, haside⟩ := hstands.resume hs hbare
    rw [← hoccur] at hresume haside
    refine ⟨_, hresume, ?_⟩
    cases d with
    | none => exact h.look hfaithful haside hlooks
    | some outcome => exact h.next_some hne op o.token _
  · have hlooks : looks op g.world x = false := Bool.not_eq_true _ ▸ hlooks
    refine ⟨d, stands_next hstands hlooks hx, ?_⟩
    cases d with
    | some outcome => exact h.next_some hne op o.token x
    | none =>
      by_cases hnow : (g.next op o.token x).world.now = g.world.now
      · exact h.next_none hfaithful hne (moment_of_now hnow hlooks)
      · exact h.pass hfaithful hstands hs hnow

end Watch

end Orchestra
