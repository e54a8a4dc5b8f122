import Mathlib.Data.List.Basic
import Orchestra.FanOut
import Orchestra.Time

/-!
# Orchestra.Proofs.FanOut.ClosedForm — the outcome of a fan-out, from when and how its calls end

A course says when and how a call ends, if it ever does.  `closedForm` says at which tick courses decide a fan-out, and
how: strictly, at the first tick at which a call fails, with the failure of the one registered first among those that fail
then; otherwise at the tick of the last ending.  What can be known of the courses at a tick (`Course.upTo`) decides nothing
before that tick and the same from it on (`closedForm_known`).
-/

namespace Orchestra

/-- When and how a call ends, if it ever does. -/
abbrev Course := Option (Tick × Ending)

namespace Course

/-- The course as far as it can be known at the end of a tick. -/
def upTo (tick : Tick) (c : Course) : Course := c.filter (·.1 ≤ tick)

/-- The tick at which the call fails, if it does. -/
def failureTick? : Course → Option Tick
  | some (t, .error _) => some t
  | _ => none

variable {c : Course} {t tick : Tick} {e : Ending}

theorem upTo_eq_some : c.upTo tick = some (t, e) ↔ c = some (t, e) ∧ t ≤ tick := by
  simp [upTo, Option.filter_eq_some_iff]

theorem upTo_of_le (h : ∀ x, c = some x → x.1 ≤ tick) : c.upTo tick = c := by
  cases c with
  | none => rfl
  | some x => simp [upTo, Option.filter, h x rfl]

theorem failureTick?_eq_some : c.failureTick? = some t ↔ ∃ f, c = some (t, .error f) := by
  rcases c with _ | ⟨t', f | r⟩
  · simp [failureTick?]
  · simp [failureTick?]
  · simp [failureTick?]

end Course

/-- The courses of the calls of a fan-out, in order of registration. -/
abbrev Courses := List (ProviderRef × Course)

namespace FanOut

/-- What the call ended with, if it succeeded. -/
def success? : ProviderRef × Course → Option Result
  | (_, some (_, .ok r)) => some r
  | _ => none

/-- What the call is reported to have failed with, if it fails. -/
def failure? (kind : Capability) : ProviderRef × Course → Option Fault
  | (p, some (_, .error f)) => some (reported kind p f)
  | _ => none

/-- What the call is reported to have failed with, if it fails at that tick. -/
def failureAt? (kind : Capability) (tick : Tick) : ProviderRef × Course → Option Fault
  | (p, some (t, .error f)) => if t = tick then some (reported kind p f) else none
  | _ => none

/-- The first tick at which a call fails. -/
def firstFailureTick? (cs : Courses) : Option Tick := (cs.filterMap (·.2.failureTick?)).min?

/-- The tick of the last ending. -/
def lastTick (cs : Courses) : Tick := (cs.filterMap fun c => c.2.map Prod.fst).foldr max 0

/-- The outcome once every call has ended: the successes merged in order of registration, or else the failure of the
provider registered first. -/
def settled (kind : Capability) (cs : Courses) : Except Fault Result :=
  match cs.filterMap success?, cs.findSome? (failure? kind) with
  | [], some f => .error f
  | rs, _ => Result.merge kind rs

/-- When and how the courses decide a fan-out, if they ever do. -/
def closedForm (kind : Capability) (policy : Policy) (cs : Courses) : Option (Tick × Except Fault Result) :=
  match policy, firstFailureTick? cs with
  | .strict, some t => (cs.findSome? (failureAt? kind t)).map fun f => (t, .error f)
  | _, _ => if cs.all (·.2.isSome) then some (lastTick cs, settled kind cs) else none

/-- The courses as far as they can be known at the end of a tick. -/
def known (tick : Tick) (cs : Courses) : Courses := cs.map fun c => (c.1, c.2.upTo tick)

variable {kind : Capability} {policy : Policy} {cs : Courses} {t tick : Tick}

theorem firstFailureTick?_eq_none : firstFailureTick? cs = none ↔ ∀ c ∈ cs, c.2.failureTick? = none := by
  unfold firstFailureTick?
  rw [List.min?_eq_none_iff, List.filterMap_eq_nil_iff]

theorem firstFailureTick?_eq_some :
    firstFailureTick? cs = some t ↔
      (∃ c ∈ cs, c.2.failureTick? = some t) ∧ ∀ c ∈ cs, ∀ t', c.2.failureTick? = some t' → t ≤ t' := by
  unfold firstFailureTick?
  rw [List.min?_eq_some_iff, List.mem_filterMap]
  refine and_congr_right fun _ => ⟨fun h c hc t' ht' => h t' (List.mem_filterMap.mpr ⟨c, hc, ht'⟩), ?_⟩
  intro h t' ht'
  obtain ⟨c, hc, ht'⟩ := List.mem_filterMap.mp ht'
  exact h c hc t' ht'

theorem failureAt?_eq_some {c : ProviderRef × Course} {f : Fault} :
    failureAt? kind tick c = some f ↔ ∃ g, c.2 = some (tick, .error g) ∧ reported kind c.1 g = f := by
  obtain ⟨p, _ | ⟨t, g | r⟩⟩ := c
  · simp [failureAt?]
  · by_cases h : t = tick <;> simp [failureAt?, h]
  · simp [failureAt?]

/-- At the first tick of a failure there is a failure to report. -/
theorem exists_failureAt? (kind : Capability) (h : firstFailureTick? cs = some t) :
    ∃ f, cs.findSome? (failureAt? kind t) = some f := by
  obtain ⟨⟨c, hc, ht⟩, -⟩ := firstFailureTick?_eq_some.mp h
  obtain ⟨g, hg⟩ := Course.failureTick?_eq_some.mp ht
  rw [← Option.isSome_iff_exists, List.findSome?_isSome_iff]
  exact ⟨c, hc, by rw [failureAt?_eq_some.mpr ⟨g, hg, rfl⟩]; rfl⟩

theorem closedForm_of_failure (h : firstFailureTick? cs = some t) :
    closedForm kind .strict cs = (cs.findSome? (failureAt? kind t)).map fun f => (t, .error f) := by
  simp only [closedForm, h]

theorem closedForm_of_no_failure (h : policy = .strict → firstFailureTick? cs = none) :
    closedForm kind policy cs = if cs.all (·.2.isSome) then some (lastTick cs, settled kind cs) else none := by
  cases policy with
  | strict => simp only [closedForm, h rfl]
  | bestEffort => simp only [closedForm]

/-! ### The last ending -/

theorem le_lastTick {c : ProviderRef × Course} (hc : c ∈ cs) {x : Tick × Ending} (hx : c.2 = some x) :
    x.1 ≤ lastTick cs := by
  unfold lastTick
  have hmem : x.1 ∈ cs.filterMap fun c => c.2.map Prod.fst := List.mem_filterMap.mpr ⟨c, hc, by rw [hx]; rfl⟩
  generalize cs.filterMap (fun c => c.2.map Prod.fst) = ts at hmem
  induction ts with
  | nil => simp at hmem
  | cons t ts ih =>
    rcases List.mem_cons.mp hmem with h | h
    · rw [h]; exact Nat.le_max_left _ _
    · exact Nat.le_trans (ih h) (Nat.le_max_right _ _)

/-- The last ending is one of the endings. -/
theorem exists_lastTick (hne : cs ≠ []) (hall : cs.all (·.2.isSome) = true) :
    ∃ c ∈ cs, ∃ e, c.2 = some (lastTick cs, e) := by
  induction cs with
  | nil => exact absurd rfl hne
  | cons c cs ih =>
    simp only [List.all_cons, Bool.and_eq_true] at hall
    obtain ⟨⟨t, e⟩, ht⟩ := Option.isSome_iff_exists.mp hall.1
    have hlast : lastTick (c :: cs) = max t (lastTick cs) := by simp [lastTick, ht]
    by_cases hcs : cs = []
    · subst hcs
      exact ⟨c, by simp, e, by rw [hlast, ht]; simp [lastTick]⟩
    · obtain ⟨c', hc', e', he'⟩ := ih hcs hall.2
      rcases Nat.le_total (lastTick cs) t with h | h
      · exact ⟨c, by simp, e, by rw [hlast, Nat.max_eq_left h, ht]⟩
      · exact ⟨c', List.mem_cons_of_mem _ hc', e', by rw [hlast, Nat.max_eq_right h, he']⟩

/-- Courses decide a fan-out when one of its calls ends. -/
theorem exists_of_closedForm {o : Except Fault Result} (hne : cs ≠ []) (h : closedForm kind policy cs = some (t, o)) :
    ∃ c ∈ cs, ∃ e, c.2 = some (t, e) := by
  by_cases hf : policy = .strict → firstFailureTick? cs = none
  · rw [closedForm_of_no_failure hf] at h
    split at h
    · rename_i hall
      obtain ⟨rfl, -⟩ := Prod.mk.inj (Option.some.inj h)
      exact exists_lastTick hne hall
    · cases h
  · push Not at hf
    obtain ⟨rfl, hf⟩ := hf
    obtain ⟨t', ht'⟩ := Option.ne_none_iff_exists'.mp hf
    rw [closedForm_of_failure ht', Option.map_eq_some_iff] at h
    obtain ⟨f, -, h⟩ := h
    obtain ⟨rfl, -⟩ := Prod.mk.inj h
    obtain ⟨⟨c, hc, hct⟩, -⟩ := firstFailureTick?_eq_some.mp ht'
    obtain ⟨g, hg⟩ := Course.failureTick?_eq_some.mp hct
    exact ⟨c, hc, _, hg⟩

/-! ### What can be known at a tick -/

theorem known_of_le (h : ∀ c ∈ cs, ∀ x, c.2 = some x → x.1 ≤ tick) : known tick cs = cs := by
  unfold known
  rw [List.map_congr_left (g := id), List.map_id]
  intro c hc
  rw [Course.upTo_of_le (h c hc)]
  rfl

theorem failureTick?_known {c : ProviderRef × Course} (hc : c ∈ known tick cs) (ht : c.2.failureTick? = some t) :
    ∃ c' ∈ cs, c'.1 = c.1 ∧ c'.2 = c.2 ∧ t ≤ tick := by
  obtain ⟨c', hc', rfl⟩ := List.mem_map.mp hc
  obtain ⟨f, hf⟩ := Course.failureTick?_eq_some.mp ht
  obtain ⟨h1, h2⟩ := Course.upTo_eq_some.mp hf
  exact ⟨c', hc', rfl, h1.trans hf.symm, h2⟩

theorem firstFailureTick?_known_of_le (h : firstFailureTick? cs = some t) (hle : t ≤ tick) :
    firstFailureTick? (known tick cs) = some t := by
  obtain ⟨⟨c, hc, ht⟩, hmin⟩ := firstFailureTick?_eq_some.mp h
  refine firstFailureTick?_eq_some.mpr ⟨⟨_, List.mem_map_of_mem hc, ?_⟩, fun c hc t' ht' => ?_⟩
  · obtain ⟨f, hf⟩ := Course.failureTick?_eq_some.mp ht
    exact Course.failureTick?_eq_some.mpr ⟨f, Course.upTo_eq_some.mpr ⟨hf, hle⟩⟩
  · obtain ⟨c', hc', -, h2, -⟩ := failureTick?_known hc ht'
    exact hmin c' hc' t' (h2 ▸ ht')

theorem firstFailureTick?_known_of_lt (h : ∀ t, firstFailureTick? cs = some t → tick < t) :
    firstFailureTick? (known tick cs) = none := by
  rw [firstFailureTick?_eq_none]
  intro c hc
  rw [Option.eq_none_iff_forall_ne_some]
  intro t ht
  obtain ⟨c', hc', -, h2, hle⟩ := failureTick?_known hc ht
  obtain ⟨t', ht'⟩ : ∃ t', firstFailureTick? cs = some t' := by
    rw [← Option.ne_none_iff_exists', ne_eq, firstFailureTick?_eq_none]
    exact fun hn => by rw [← h2, hn c' hc'] at ht; cases ht
  have hmin := (firstFailureTick?_eq_some.mp ht').2 c' hc' t (h2 ▸ ht)
  exact Nat.not_lt_of_le (Nat.le_trans hmin hle) (h t' ht')

theorem findSome?_failureAt?_known (hle : t ≤ tick) :
    (known tick cs).findSome? (failureAt? kind t) = cs.findSome? (failureAt? kind t) := by
  unfold known
  rw [List.findSome?_map]
  congr 1
  funext c
  refine Option.ext fun f => ?_
  simp only [Function.comp_apply, failureAt?_eq_some, Course.upTo_eq_some, hle, and_true]

/-- What can be known at a tick decides a fan-out if the courses decide it by then, and in the same way. -/
theorem closedForm_known (hne : cs ≠ []) (tick : Tick) :
    closedForm kind policy (known tick cs) = (closedForm kind policy cs).filter (·.1 ≤ tick) := by
  by_cases hf : ∃ t ≤ tick, policy = .strict ∧ firstFailureTick? cs = some t
  · obtain ⟨t, hle, rfl, ht⟩ := hf
    rw [closedForm_of_failure ht, closedForm_of_failure (firstFailureTick?_known_of_le ht hle),
      findSome?_failureAt?_known hle]
    obtain ⟨f, hf⟩ := exists_failureAt? kind ht
    simp [hf, Option.filter, hle]
  · push Not at hf
    have hk : policy = .strict → firstFailureTick? (known tick cs) = none := fun hp =>
      firstFailureTick?_known_of_lt fun t ht => by
        by_contra hlt
        exact hf t (Nat.le_of_not_lt hlt) hp ht
    rw [closedForm_of_no_failure hk]
    by_cases hall : (known tick cs).all (·.2.isSome) = true
    · -- every call has ended by now, so nothing is unknown
      have hle : ∀ c ∈ cs, ∀ x, c.2 = some x → x.1 ≤ tick := by
        intro c hc x hx
        have hs := List.all_eq_true.mp hall _ (List.mem_map_of_mem hc)
        obtain ⟨y, hy⟩ := Option.isSome_iff_exists.mp hs
        obtain ⟨h1, h2⟩ := Course.upTo_eq_some.mp (show c.2.upTo tick = some (y.1, y.2) from hy)
        rw [hx] at h1
        rw [Option.some.inj h1]
        exact h2
      rw [known_of_le hle] at hk hall ⊢
      rw [closedForm_of_no_failure hk, if_pos hall]
      obtain ⟨c, hc, e, he⟩ := exists_lastTick hne hall
      simp [Option.filter, hle c hc _ he]
    · rw [if_neg hall, eq_comm, Option.filter_eq_none_iff]
      rintro ⟨t, o⟩ ho hle
      refine hall (List.all_eq_true.mpr fun c hc => ?_)
      obtain ⟨c', hc', rfl⟩ := List.mem_map.mp hc
      simp only [decide_eq_true_eq] at hle
      by_cases hn : policy = .strict → firstFailureTick? cs = none
      · rw [closedForm_of_no_failure hn] at ho
        split at ho
        · rename_i hall'
          obtain ⟨rfl, -⟩ := Prod.mk.inj (Option.some.inj ho)
          obtain ⟨x, hx⟩ := Option.isSome_iff_exists.mp (List.all_eq_true.mp hall' c' hc')
          rw [Course.upTo_eq_some.mpr ⟨hx, Nat.le_trans (le_lastTick hc' hx) hle⟩]
          rfl
        · cases ho
      · push Not at hn
        obtain ⟨rfl, hn⟩ := hn
        obtain ⟨t', ht'⟩ := Option.ne_none_iff_exists'.mp hn
        rw [closedForm_of_failure ht', Option.map_eq_some_iff] at ho
        obtain ⟨f, -, ho⟩ := ho
        obtain ⟨rfl, -⟩ := Prod.mk.inj ho
        exact absurd ht' (hf t' hle rfl)

end FanOut

end Orchestra
