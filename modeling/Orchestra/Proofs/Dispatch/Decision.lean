import Orchestra.Proofs.Dispatch.Alone

/-!
# Orchestra.Proofs.Dispatch.Decision — when a fan-out is decided, and by what

Of the first cancellation of its token and of the tick at which its calls would decide it, the earlier decides a fan-out,
and the cancellation if they fall together (`FanOut.decision`).  Both are read off the clockwork that is left when nothing
is due any more; whoever waits meanwhile looks at less than that, but never too little (`look_of_grows`), so the fan-out
ends at that tick in that way (`passTime_foretold`).
-/

namespace Orchestra

namespace FanOut

/-- What a cancelled fan-out ends with. -/
def cancellation (kind : Capability) : Except Fault Result := .error (.cancelled (some kind.value) none)

/-- What comes first, the cancellation of the token or a decision by the calls; together, it is the cancellation. -/
def decision (kind : Capability) (cancelledAt : Option Tick) (decided : Option (Tick × Except Fault Result)) :
    Option (Tick × Except Fault Result) :=
  match cancelledAt, decided with
  | none, decided => decided
  | some c, none => some (c, cancellation kind)
  | some c, some (tick, outcome) => if c ≤ tick then some (c, cancellation kind) else some (tick, outcome)

variable {kind : Capability} {cancelledAt : Option Tick} {decided : Option (Tick × Except Fault Result)} {now : Tick}

theorem decision_of_cancelled {c : Tick} (h : ∀ x, decided = some x → c ≤ x.1) :
    decision kind (some c) decided = some (c, cancellation kind) := by
  cases decided with
  | none => rfl
  | some x => exact if_pos (h x rfl)

theorem decision_of_late {tick : Tick} {outcome : Except Fault Result} (h : ∀ c, cancelledAt = some c → tick < c) :
    decision kind cancelledAt (some (tick, outcome)) = some (tick, outcome) := by
  cases cancelledAt with
  | none => rfl
  | some c => exact if_neg (Nat.not_le_of_lt (h c rfl))

/-- At a tick before which nothing was decided, a look finds what is decided at that tick. -/
theorem look_decision (hearly : ∀ x, decision kind cancelledAt decided = some x → now ≤ x.1) :
    (if (cancelledAt.filter (· ≤ now)).isSome then some (cancellation kind)
      else (decided.filter (·.1 ≤ now)).map Prod.snd) =
      ((decision kind cancelledAt decided).filter (·.1 ≤ now)).map Prod.snd := by
  rcases cancelledAt with _ | c
  · rfl
  · rcases decided with _ | ⟨tick, outcome⟩
    · by_cases hc : c ≤ now <;> simp [decision, Option.filter, hc]
    · by_cases hle : c ≤ tick
      · by_cases hc : c ≤ now
        · simp [decision, Option.filter, hc, hle]
        · have ht : ¬ tick ≤ now := fun ht => hc (Nat.le_trans hle ht)
          simp [decision, Option.filter, hc, hle, ht]
      · -- the calls decide first, so the token cannot have been cancelled before now
        have hnow : now ≤ tick := hearly (tick, outcome) (by simp [decision, hle])
        have hc : ¬ c ≤ now := fun hc => hle (Nat.le_trans hc hnow)
        simp [decision, Option.filter, hc, hle]

theorem decision_tick {x : Tick × Except Fault Result} (h : decision kind cancelledAt decided = some x) :
    cancelledAt = some x.1 ∨ decided = some x := by
  rcases cancelledAt with _ | c
  · exact .inr h
  · rcases decided with _ | ⟨tick, outcome⟩
    · exact .inl (by cases h; rfl)
    · by_cases hle : c ≤ tick
      · rw [decision, if_pos hle] at h
        exact .inl (by cases h; rfl)
      · rw [decision, if_neg hle] at h
        exact .inr h

end FanOut

namespace Clockwork

variable {c e : Clockwork} {f : Flight} {token : Token}

/-- How the flight is decided, as far as is known. -/
def decision (c : Clockwork) (f : Flight) (token : Token) : Option (Tick × Except Fault Result) :=
  FanOut.decision f.kind (c.cancelledAt? token) (FanOut.closedForm f.kind f.policy (c.courses f.calls))

/-- A look sees what a later clockwork says about that tick. -/
theorem look_of_grows (hc : c.Timely) (hn : c.Numbered) (hn' : e.Numbered) (hgrows : Grows (c.now + 1) c e)
    (hne : f.calls ≠ []) (hearly : ∀ x, e.decision f token = some x → c.now ≤ x.1) :
    f.look c token = ((e.decision f token).filter (·.1 ≤ c.now)).map Prod.snd := by
  have hcs : e.courses f.calls ≠ [] := by simpa [courses, FanOut.coursesOf] using hne
  rw [look_eq hc hn, cancelledAt?_of_grows hc hgrows, courses_of_grows hc hn hn' hgrows, FanOut.closedForm_known hcs]
  exact FanOut.look_decision hearly

/-- A flight is decided when a source is cancelled or a call ends. -/
theorem decision_tick {x : Tick × Except Fault Result} (hne : f.calls ≠ []) (h : c.decision f token = some x) :
    (∃ name, (name, x.1) ∈ c.cancelled) ∨ ∃ e ∈ c.ended, e.tick = x.1 := by
  rcases FanOut.decision_tick h with hcancelled | hdecided
  · obtain ⟨name, -, hmem⟩ := mem_of_cancelledAt? hcancelled
    exact .inl ⟨name, hmem⟩
  · have hcs : c.courses f.calls ≠ [] := by simpa [courses, FanOut.coursesOf] using hne
    obtain ⟨call, hcall, y, hy⟩ := FanOut.exists_of_closedForm hcs hdecided
    obtain ⟨⟨p, task⟩, -, rfl⟩ := List.mem_map.mp hcall
    obtain ⟨e, he, hcourse⟩ := Option.bind_eq_some_iff.mp hy
    obtain ⟨z, -, hpair⟩ := Option.map_eq_some_iff.mp hcourse
    exact .inr ⟨e, List.mem_of_find?_eq_some he, (Prod.mk.inj hpair).1⟩

/-- What is decided later than now is decided no sooner than something happens again. -/
theorem le_decision_of_grows {tick : Tick} {x : Tick × Except Fault Result} (hc : c.Timely)
    (hgrows : Grows tick c e) (hne : f.calls ≠ []) (h : e.decision f token = some x) (hlt : c.now < x.1) :
    tick ≤ x.1 := by
  obtain ⟨es, hes, hes'⟩ := hgrows.ended
  obtain ⟨xs, hxs, hxs'⟩ := hgrows.cancelled
  obtain ⟨name, hmem⟩ | ⟨e', hmem, htick⟩ := decision_tick hne h
  · rw [hxs] at hmem
    rcases List.mem_append.mp hmem with hmem | hmem
    · exact absurd (hc.cancelled _ hmem) (Nat.not_le_of_lt hlt)
    · exact hxs' _ hmem
  · rw [hes] at hmem
    rw [← htick] at hlt ⊢
    rcases List.mem_append.mp hmem with hmem | hmem
    · exact absurd (hc.ended _ hmem) (Nat.not_le_of_lt hlt)
    · exact hes' _ hmem

/-- Once nothing more happens, everything was decided in the past. -/
theorem decision_le {x : Tick × Except Fault Result} (hc : c.Timely) (hne : f.calls ≠ [])
    (h : c.decision f token = some x) : x.1 ≤ c.now := by
  obtain ⟨name, hmem⟩ | ⟨e, hmem, htick⟩ := decision_tick hne h
  · exact hc.cancelled _ hmem
  · exact htick ▸ hc.ended e hmem

end Clockwork

namespace World

variable {w : World} {o : Operation} {f : Flight}

theorem passTime_succ (condition : World → Bool) (n : Nat) (w : World) :
    passTime condition (n + 1) w =
      if condition w.settle then (w.settle, true)
      else
        match w.settle.nextDue with
        | none => (w.settle, false)
        | some tick => passTime condition n (w.settle.at_ tick) :=
  rfl

/-- What settling makes true and the next tick keeps in a weaker form holds, in that form, however long one waits. -/
theorem passTime_induction {P Q : World → Prop} (hsettle : ∀ w, P w → Q w.settle)
    (hat : ∀ w tick, Q w → w.nextDue = some tick → P (w.at_ tick)) (hweaken : ∀ w, Q w → P w)
    (condition : World → Bool) (n : Nat) (h : P w) : P (w.passTime condition n).1 := by
  induction n generalizing w with
  | zero => exact h
  | succ n ih =>
    rw [passTime_succ]
    split
    · exact hweaken _ (hsettle w h)
    · split
      · exact hweaken _ (hsettle w h)
      · rename_i tick hnext
        exact ih (hat _ tick (hsettle w h) hnext)

/-- Waiting only adds to what is known. -/
theorem passTime_grows (h : w.Alone o) (condition : World → Bool) (n : Nat) :
    (∃ o', (w.passTime condition n).1.Alone o') ∧ w.clock.Grows w.now (w.passTime condition n).1.clock := by
  have hmain := passTime_induction
    (P := fun v => (∃ o', v.Alone o') ∧ w.now ≤ v.now ∧ w.clock.Grows w.now v.clock)
    (Q := fun v => (∃ o', v.Alone o') ∧ v.Settled ∧ w.now ≤ v.now ∧ w.clock.Grows w.now v.clock)
    (fun v ⟨⟨o', hv⟩, hle, hgrows⟩ => by
      have hwithin := within_settle_alone hv
      obtain ⟨clock, -, -, -, -, halone⟩ := settle_alone hv
      exact ⟨⟨_, halone⟩, settled_alone hv, Nat.le_trans hle (Nat.le_of_eq hwithin.now.symm),
        hgrows.trans (hwithin.grows hle)⟩)
    (fun v tick ⟨⟨o', hv⟩, hs, hle, hgrows⟩ hnext => by
      have hlt := lt_nextDue hv hs hnext
      exact ⟨⟨o', hv.at_ (Nat.le_of_lt hlt)⟩, Nat.le_trans hle (Nat.le_of_lt hlt), hgrows.ended, hgrows.cancelled⟩)
    (fun v ⟨hv, _, hle, hgrows⟩ => ⟨hv, hle, hgrows⟩) condition n
    ⟨⟨o, h⟩, Nat.le_refl _, Clockwork.Grows.refl _ _⟩
  exact ⟨hmain.1, hmain.2.2⟩

/-- The outcome of a fan-out stands, whatever one waits for afterwards. -/
theorem passTime_done {outcome : Except Fault Answer} {tick : Tick} (h : w.Alone o)
    (hd : o.stage = .done outcome tick) (condition : World → Bool) (n : Nat) :
    (w.passTime condition n).1.Alone o := by
  have hseen (c : Clockwork) : o.seen c = o := Operation.seen_done hd c
  refine passTime_induction (P := fun v => v.Alone o) (Q := fun v => v.Alone o ∧ v.Settled) (fun v hv => ?_)
    (fun v t ⟨hv, hs⟩ hnext => hv.at_ (Nat.le_of_lt (lt_nextDue hv hs hnext))) (fun v hv => hv.1) condition n h
  obtain ⟨clock, -, -, -, -, halone⟩ := settle_alone hv
  rw [hseen] at halone
  exact ⟨halone, settled_alone hv⟩

/-- The outcome of the operation as the decision gives it. -/
def answered (d : Option (Tick × Except Fault Result)) : Option (Except Fault Answer × Tick) :=
  d.map fun x => (x.2.map .result, x.1)

/-- The decision is foretold: `P` holds of worlds in which a tick begins and `Q` of those in which it has ended, and by
these a look finds the decision at its tick and nothing before, and something is due no later than that. -/
structure Foretells (P Q : World → Prop) (f : Flight) (token : Token) (d : Option (Tick × Except Fault Result)) :
    Prop where
  settle : ∀ w o, w.Alone o → P w → Q w.settle
  next : ∀ w o tick, w.Alone o → w.Settled → Q w → w.nextDue = some tick → P (w.at_ tick)
  look : ∀ w o, w.Alone o → w.Settled → Q w → (∀ x, d = some x → w.now ≤ x.1) →
    f.look w.clock token = (d.filter (·.1 ≤ w.now)).map Prod.snd
  due : ∀ w o x, w.Alone o → w.Settled → Q w → d = some x → w.now < x.1 →
    ∃ tick, w.nextDue = some tick ∧ tick ≤ x.1

/-- **Whoever waits for a fan-out gets what is foretold**, at its tick; if nothing is, there is nothing left to wait
for. -/
theorem passTime_foretold {P Q : World → Prop} {d : Option (Tick × Except Fault Result)} {n : Nat} (h : w.Alone o)
    (hf : o.stage = .flying f) (hd : Foretells P Q f o.token d) (hfuel : w.settle.pending < n) (hw : P w)
    (hearly : ∀ x, d = some x → w.now ≤ x.1) :
    ∃ v o', w.passTime (fun w => (w.outcome? 0).isSome) n = (v, d.isSome) ∧ v.Alone o' ∧ o'.outcome? = answered d ∧
      ∀ x, d = some x → v.now = x.1 := by
  induction n generalizing w with
  | zero => exact absurd hfuel (Nat.not_lt_zero _)
  | succ n ih =>
    obtain ⟨clock, touched, -, hclock, -, hu⟩ := settle_alone h
    have hs := settled_alone h
    have hq := hd.settle w o h hw
    have hnow : w.settle.now = w.now := (within_settle_alone h).now
    rw [← hclock] at hu
    rw [← hnow] at hearly
    have hlook := hd.look _ _ hu hs hq hearly
    by_cases hdue : ∃ x, d = some x ∧ x.1 ≤ w.settle.now
    · obtain ⟨x, rfl, hle⟩ := hdue
      have htick : x.1 = w.settle.now := Nat.le_antisymm hle (hearly x rfl)
      have hseen : o.seen w.settle.clock = { o with stage := .done (x.2.map .result) x.1 } := by
        have hnow' : w.settle.clock.now = x.1 := htick.symm
        rw [Operation.seen_flying hf, hlook]
        simp [Option.filter, htick, hnow']
      rw [hseen] at hu
      have hout : w.settle.outcome? 0 = some (x.2.map .result, x.1) := hu.outcome?
      refine ⟨w.settle, _, ?_, hu, rfl, fun y hy => ?_⟩
      · rw [passTime_succ, if_pos (by rw [hout]; rfl)]
        rfl
      · rw [← Option.some.inj hy]
        exact htick.symm
    · -- the operation looks in vain and goes on
      have hdue : ∀ x, d = some x → w.settle.now < x.1 := fun x hx =>
        Nat.lt_of_not_le fun hle => hdue ⟨x, hx, hle⟩
      have hnone : d.filter (·.1 ≤ w.settle.now) = none :=
        Option.filter_eq_none_iff.mpr fun x hx => by simpa using Nat.not_le_of_lt (hdue x hx)
      have hseen : o.seen w.settle.clock = o := by
        rw [Operation.seen_flying hf, hlook, hnone]
        rfl
      rw [hseen] at hu
      have hout : w.settle.outcome? 0 = none := by rw [hu.outcome?, Operation.outcome?, hf]
      rw [passTime_succ, if_neg (by rw [hout]; simp)]
      cases hnext : w.settle.nextDue with
      | none =>
        cases d with
        | none => exact ⟨w.settle, o, rfl, hu, by rw [Operation.outcome?, hf]; rfl, by simp⟩
        | some x =>
          obtain ⟨tick, htick, -⟩ := hd.due _ _ x hu hs hq rfl (hdue x rfl)
          rw [hnext] at htick
          cases htick
      | some tick =>
        have hlt := lt_nextDue hu hs hnext
        have hv := hu.at_ (Nat.le_of_lt hlt)
        refine ih hv (Nat.lt_of_lt_of_le (settle_pending_lt hv (isDue_at hu hnext)) (Nat.le_of_lt_succ hfuel))
          (hd.next _ _ _ hu hs hq hnext) fun x hx => ?_
        obtain ⟨tick', htick', hle⟩ := hd.due _ _ x hu hs hq hx (hdue x hx)
        rw [hnext] at htick'
        exact Option.some.inj htick' ▸ hle

/-- Nothing is due any more once one has waited for what never comes, and this is the clockwork then. -/
def EndsWith (e : Clockwork) (w : World) : Prop :=
  ∃ n, w.settle.pending < n ∧ (w.passTime (fun _ => false) n).1.clock = e

/-- The same at the end of a tick. -/
def EndsWithFrom (e : Clockwork) (w : World) : Prop :=
  match w.nextDue with
  | none => w.clock = e
  | some tick => EndsWith e (w.at_ tick)

theorem EndsWith.settle {e : Clockwork} (h : w.Alone o) (he : EndsWith e w) : EndsWithFrom e w.settle := by
  obtain ⟨n, hfuel, he⟩ := he
  obtain ⟨clock, -, -, -, -, hu⟩ := settle_alone h
  cases n with
  | zero => exact absurd hfuel (Nat.not_lt_zero _)
  | succ n =>
    rw [passTime_succ, if_neg (by simp)] at he
    unfold EndsWithFrom
    cases hnext : w.settle.nextDue with
    | none =>
      rw [hnext] at he
      exact he
    | some tick =>
      rw [hnext] at he
      have hv := hu.at_ (Nat.le_of_lt (lt_nextDue hu (settled_alone h) hnext))
      exact ⟨n, Nat.lt_of_lt_of_le (settle_pending_lt hv (isDue_at hu hnext)) (Nat.le_of_lt_succ hfuel), he⟩

/-- What is left to happen comes after this tick, and not before the next one at which something is due. -/
theorem EndsWithFrom.grows {e : Clockwork} (h : w.Alone o) (hs : w.Settled) (he : EndsWithFrom e w) :
    e.Numbered ∧ w.clock.Grows (w.now + 1) e ∧ ∀ tick, w.nextDue = some tick → w.clock.Grows tick e := by
  unfold EndsWithFrom at he
  cases hnext : w.nextDue with
  | none =>
    rw [hnext] at he
    exact he ▸ ⟨h.numbered, .refl _ _, by simp⟩
  | some tick =>
    rw [hnext] at he
    obtain ⟨n, -, he⟩ := he
    have hlt := lt_nextDue h hs hnext
    obtain ⟨⟨o', hv⟩, hgrows⟩ := passTime_grows (h.at_ (Nat.le_of_lt hlt)) (fun _ => false) n
    rw [he] at hgrows
    have hgrows : w.clock.Grows tick e := ⟨hgrows.ended, hgrows.cancelled⟩
    exact ⟨he ▸ hv.numbered, hgrows.mono hlt, fun t ht => Option.some.inj ht ▸ hgrows⟩

/-- The clockwork that is left foretells the decision. -/
theorem foretells_decision {token : Token} (hne : f.calls ≠ []) (e : Clockwork) :
    Foretells (EndsWith e) (EndsWithFrom e) f token (e.decision f token) where
  settle _ _ h he := he.settle h
  next w _ tick _ _ he hnext := by rw [EndsWithFrom, hnext] at he; exact he
  look w _ h hs he hearly := by
    obtain ⟨hn, hgrows, -⟩ := he.grows h hs
    exact Clockwork.look_of_grows h.timely h.numbered hn hgrows hne hearly
  due w _ x h hs he hx hlt := by
    cases hnext : w.nextDue with
    | none =>
      rw [EndsWithFrom, hnext] at he
      exact absurd (Clockwork.decision_le h.timely hne (he ▸ hx)) (Nat.not_le_of_lt hlt)
    | some tick =>
      obtain ⟨-, -, hgrows⟩ := he.grows h hs
      exact ⟨tick, rfl, Clockwork.le_decision_of_grows h.timely (hgrows tick hnext) hne hx hlt⟩

end World

end Orchestra
