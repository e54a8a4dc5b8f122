import Mathlib.Order.MinMax
import Orchestra.Proofs.Dispatch.Decision

/-!
# Orchestra.Proofs.Dispatch.Moments — a decision depends on the order of what happens, and stands

What decides a fan-out, and how, is the same on any clock that runs as the other does (`closedForm_retimed`).  A decision
is made of what is known by then: what comes later changes nothing (`decision_filter`, `decision_stands`).
-/

namespace Orchestra

/-- The course on another clock. -/
def Course.retimed (g : Tick → Tick) (c : Course) : Course := c.map fun x => (g x.1, x.2)

namespace FanOut

variable {kind : Capability} {policy : Policy} {cs cs' : Courses} {g : Tick → Tick} {t : Tick}

/-- The courses on another clock. -/
def retimed (g : Tick → Tick) (cs : Courses) : Courses := cs.map fun c => (c.1, c.2.retimed g)

theorem failureTick?_retimed (c : Course) : (c.retimed g).failureTick? = c.failureTick?.map g := by
  rcases c with _ | ⟨t, f | r⟩ <;> rfl

theorem firstFailureTick?_retimed (hg : StrictMono g) : firstFailureTick? (retimed g cs) = (firstFailureTick? cs).map g := by
  have hmem : ∀ {c' : ProviderRef × Course}, c' ∈ retimed g cs → ∃ c ∈ cs, c'.2.failureTick? = c.2.failureTick?.map g := by
    intro c' hc'
    obtain ⟨c, hc, rfl⟩ := List.mem_map.mp hc'
    exact ⟨c, hc, failureTick?_retimed c.2⟩
  cases h : firstFailureTick? cs with
  | none =>
    rw [Option.map_none, firstFailureTick?_eq_none]
    intro c' hc'
    obtain ⟨c, hc, hfail⟩ := hmem hc'
    rw [hfail, firstFailureTick?_eq_none.mp h c hc, Option.map_none]
  | some t =>
    obtain ⟨⟨c, hc, ht⟩, hmin⟩ := firstFailureTick?_eq_some.mp h
    rw [Option.map_some, firstFailureTick?_eq_some]
    refine ⟨⟨_, List.mem_map_of_mem hc, by rw [failureTick?_retimed, ht, Option.map_some]⟩, fun c' hc' t' ht' => ?_⟩
    obtain ⟨c, hc, hfail⟩ := hmem hc'
    rw [hfail, Option.map_eq_some_iff] at ht'
    obtain ⟨t'', ht'', rfl⟩ := ht'
    exact hg.monotone (hmin c hc t'' ht'')

theorem failureAt?_retimed (hg : StrictMono g) (c : ProviderRef × Course) :
    failureAt? kind (g t) (c.1, c.2.retimed g) = failureAt? kind t c := by
  refine Option.ext fun f => ?_
  simp only [failureAt?_eq_some, Course.retimed, Option.map_eq_some_iff, Prod.mk.injEq]
  constructor
  · rintro ⟨fault, ⟨⟨t', e⟩, hc, ht, rfl⟩, hf⟩
    obtain rfl : t' = t := hg.injective ht
    exact ⟨fault, hc, hf⟩
  · rintro ⟨fault, hc, hf⟩
    exact ⟨fault, ⟨_, hc, rfl, rfl⟩, hf⟩

theorem lastTick_retimed (hg : StrictMono g) (hzero : g 0 = 0) : lastTick (retimed g cs) = g (lastTick cs) := by
  induction cs with
  | nil => exact hzero.symm
  | cons c cs ih =>
    obtain ⟨p, _ | x⟩ := c
    · exact ih
    · show max (g x.1) (lastTick (retimed g cs)) = g (max x.1 (lastTick cs))
      rw [ih, hg.monotone.map_max]

theorem settled_retimed : settled kind (retimed g cs) = settled kind cs := by
  have hsuccess : success? ∘ (fun c : ProviderRef × Course => (c.1, c.2.retimed g)) = success? := by
    funext ⟨p, c⟩
    rcases c with _ | ⟨t, f | r⟩ <;> rfl
  have hfailure : failure? kind ∘ (fun c : ProviderRef × Course => (c.1, c.2.retimed g)) = failure? kind := by
    funext ⟨p, c⟩
    rcases c with _ | ⟨t, f | r⟩ <;> rfl
  unfold settled retimed
  rw [List.filterMap_map, List.findSome?_map, hsuccess, hfailure]

/-- **On another clock** the same decides a fan-out, in the same way. -/
theorem closedForm_retimed (hg : StrictMono g) (hzero : g 0 = 0) :
    closedForm kind policy (retimed g cs) = (closedForm kind policy cs).map fun x => (g x.1, x.2) := by
  by_cases hf : policy = .strict → firstFailureTick? cs = none
  · have hf' : policy = .strict → firstFailureTick? (retimed g cs) = none := fun hp => by
      rw [firstFailureTick?_retimed hg, hf hp, Option.map_none]
    have hsome : (fun c : ProviderRef × Course => c.2.isSome) ∘ (fun c : ProviderRef × Course => (c.1, c.2.retimed g)) =
        fun c => c.2.isSome := funext fun c => Option.isSome_map
    have hall : (retimed g cs).all (·.2.isSome) = cs.all (·.2.isSome) := by
      unfold retimed
      rw [List.all_map, hsome]
    rw [closedForm_of_no_failure hf, closedForm_of_no_failure hf', hall, lastTick_retimed hg hzero, settled_retimed]
    split <;> rfl
  · push Not at hf
    obtain ⟨rfl, hf⟩ := hf
    obtain ⟨t, ht⟩ := Option.ne_none_iff_exists'.mp hf
    have ht' : firstFailureTick? (retimed g cs) = some (g t) := by rw [firstFailureTick?_retimed hg, ht, Option.map_some]
    rw [closedForm_of_failure ht, closedForm_of_failure ht', Option.map_map]
    unfold retimed
    rw [List.findSome?_map]
    have hat : failureAt? kind (g t) ∘ (fun c : ProviderRef × Course => (c.1, c.2.retimed g)) = failureAt? kind t :=
      funext fun c => failureAt?_retimed hg c
    rw [hat]
    rfl

/-! ### What is known by then -/

variable {cancelledAt cancelledAt' : Option Tick} {decided decided' : Option (Tick × Except Fault Result)} {tick : Tick}
  {outcome : Except Fault Result}

/-- What is known by a tick decides what is decided by then. -/
theorem decision_filter (tick : Tick) :
    (decision kind cancelledAt decided).filter (·.1 ≤ tick) =
      decision kind (cancelledAt.filter (· ≤ tick)) (decided.filter (·.1 ≤ tick)) := by
  rcases cancelledAt with _ | c
  · rfl
  · rcases decided with _ | ⟨t, outcome⟩
    · by_cases hc : c ≤ tick <;> simp [decision, Option.filter, hc]
    · by_cases hle : c ≤ t
      · by_cases hc : c ≤ tick <;> by_cases ht : t ≤ tick
        · simp [decision, Option.filter, hc, hle, ht]
        · simp [decision, Option.filter, hc, hle, ht]
        · exact absurd (Nat.le_trans hle ht) hc
        · simp [decision, Option.filter, hc, hle, ht]
      · by_cases hc : c ≤ tick
        · have ht : t ≤ tick := Nat.le_trans (Nat.le_of_not_le hle) hc
          simp [decision, Option.filter, hc, hle, ht]
        · by_cases ht : t ≤ tick <;> simp [decision, Option.filter, hc, hle, ht]

/-- A decision by a cancellation is not made by the calls. -/
theorem eq_cancellation_of_decision (h : decision kind (some tick) decided = some (tick, outcome)) :
    outcome = cancellation kind ∧ ∀ x, decided = some x → tick ≤ x.1 := by
  rcases decided with _ | ⟨t, o⟩
  · cases h
    exact ⟨rfl, nofun⟩
  · by_cases hle : tick ≤ t
    · rw [decision, if_pos hle] at h
      cases h
      exact ⟨rfl, fun x hx => Option.some.inj hx ▸ hle⟩
    · rw [decision, if_neg hle] at h
      cases h
      exact absurd (Nat.le_refl _) hle

/-- **A decision stands** if everything new comes later, or with a cancellation that has decided. -/
theorem decision_stands {now : Tick} (h : decision kind cancelledAt decided = some (tick, outcome))
    (hle : tick < now ∨ tick ≤ now ∧ cancelledAt = some tick ∧ cancelledAt' = some tick)
    (hcancelled : ∀ t < now, cancelledAt'.filter (· ≤ t) = cancelledAt.filter (· ≤ t))
    (hdecided : ∀ t < now, decided'.filter (·.1 ≤ t) = decided.filter (·.1 ≤ t)) :
    decision kind cancelledAt' decided' = some (tick, outcome) := by
  rcases hle with hlt | ⟨hle, rfl, rfl⟩
  · have hsame : (decision kind cancelledAt' decided').filter (·.1 ≤ tick) =
        (decision kind cancelledAt decided).filter (·.1 ≤ tick) := by
      rw [decision_filter, decision_filter, hcancelled tick hlt, hdecided tick hlt]
    rw [h, Option.filter_some_pos (by simp)] at hsame
    exact (Option.filter_eq_some_iff.mp hsame).1
  · obtain ⟨rfl, hfirst⟩ := eq_cancellation_of_decision h
    refine decision_of_cancelled fun x hx => ?_
    by_contra hlt
    have hsame := hdecided x.1 (Nat.lt_of_lt_of_le (Nat.lt_of_not_le hlt) hle)
    rw [hx, Option.filter_some_pos (by simp)] at hsame
    exact hlt (hfirst x (Option.filter_eq_some_iff.mp hsame.symm).1)

/-- What is decided sooner than everything new was decided before. -/
theorem decision_before {now : Tick} {x : Tick × Except Fault Result} (h : decision kind cancelledAt' decided' = some x)
    (hlt : x.1 < now) (hcancelled : ∀ t < now, cancelledAt'.filter (· ≤ t) = cancelledAt.filter (· ≤ t))
    (hdecided : ∀ t < now, decided'.filter (·.1 ≤ t) = decided.filter (·.1 ≤ t)) :
    decision kind cancelledAt decided = some x := by
  obtain ⟨tick, outcome⟩ := x
  exact decision_stands h (.inl hlt) (fun t ht => (hcancelled t ht).symm) fun t ht => (hdecided t ht).symm

end FanOut

end Orchestra
