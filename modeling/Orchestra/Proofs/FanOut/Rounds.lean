import Orchestra.Proofs.FanOut.ClosedForm

/-!
# Orchestra.Proofs.FanOut.Rounds — waiting round by round reaches the closed form

Each call has a course, and there is a round for every tick at which one of them ends, in order, which shows the calls that
end then (`Shows`).  What the loop has after any first rounds is characterized exactly: the calls that have not ended by
then are pending (`pendingAfter`), and the failures by then are skipped under their places (`skippedAfter`).  Hence,
whatever the pattern of arrivals, the loop decides what `closedForm` says (`verdict_eq`).
-/

namespace Orchestra

namespace FanOut

/-- The calls with their courses. -/
def coursesOf (calls : Calls) (course : Nat → Course) : Courses := calls.map fun c => (c.1, course c.2)

/-- The round shows the calls that end at the tick, and no others. -/
def Shows (calls : Calls) (course : Nat → Course) (round : Round) (tick : Tick) : Prop :=
  ∀ c ∈ calls, round.lookup c.2 = (course c.2).bind fun x => if x.1 = tick then some x.2 else none

/-- The calls that have not ended at any of the ticks. -/
def pendingAfter (calls : Calls) (course : Nat → Course) (done : List Tick) : List Nat :=
  (calls.map Prod.snd).filter fun task => (course task).all fun x => !done.contains x.1

/-- The failures of a tick, under their places from a place on. -/
def skippedAt (kind : Capability) (course : Nat → Course) (tick : Tick) (place : Nat) (calls : Calls) : Skipped :=
  (calls.zipIdx place).filterMap fun c => (failureAt? kind tick (c.1.1, course c.1.2)).map (c.2, ·)

/-- The failures of several ticks, one after the other. -/
def skippedAfter (kind : Capability) (calls : Calls) (course : Nat → Course) (done : List Tick) : Skipped :=
  done.flatMap fun tick => skippedAt kind course tick 0 calls

variable {kind : Capability} {policy : Policy} {calls : Calls} {course : Nat → Course} {round : Round} {tick : Tick}
  {skipped : Skipped} {place : Nat}

theorem Shows.tail {c : ProviderRef × Nat} (h : Shows (c :: calls) course round tick) : Shows calls course round tick :=
  fun c' hc' => h c' (List.mem_cons_of_mem _ hc')

/-- A call fails at the tick if the round shows its failure. -/
theorem Shows.failureAt? {c : ProviderRef × Nat} (h : Shows (c :: calls) course round tick) :
    failureAt? kind tick (c.1, course c.2) =
      match round.lookup c.2 with
      | some (.error f) => some (reported kind c.1 f)
      | _ => none := by
  rw [h c List.mem_cons_self]
  rcases course c.2 with _ | ⟨t, f | r⟩
  · rfl
  · by_cases ht : t = tick <;> simp [FanOut.failureAt?, ht]
  · by_cases ht : t = tick <;> simp [FanOut.failureAt?, ht]

/-! ### One round -/

theorem sift_strict (h : Shows calls course round tick) :
    sift kind .strict round place calls skipped =
      match (coursesOf calls course).findSome? (failureAt? kind tick) with
      | some f => .error f
      | none => .ok skipped := by
  induction calls generalizing place with
  | nil => rfl
  | cons c calls ih =>
    obtain ⟨p, task⟩ := c
    simp only [coursesOf, List.map_cons, List.findSome?_cons, h.failureAt?]
    rcases hl : round.lookup task with _ | f | r
    · simp only [sift, hl]
      exact ih h.tail
    · simp only [sift, hl]
    · simp only [sift, hl]
      exact ih h.tail

theorem sift_bestEffort (h : Shows calls course round tick) :
    sift kind .bestEffort round place calls skipped = .ok (skipped ++ skippedAt kind course tick place calls) := by
  induction calls generalizing place skipped with
  | nil => simp [sift, skippedAt]
  | cons c calls ih =>
    obtain ⟨p, task⟩ := c
    simp only [skippedAt, List.zipIdx_cons, List.filterMap_cons, h.failureAt?]
    rcases hl : round.lookup task with _ | f | r
    · simp only [sift, hl, Option.map_none]
      exact ih h.tail
    · simp only [sift, hl, Option.map_some]
      rw [ih h.tail, List.append_assoc]
      rfl
    · simp only [sift, hl, Option.map_none]
      exact ih h.tail

theorem pendingAfter_nil (calls : Calls) (course : Nat → Course) :
    pendingAfter calls course [] = calls.map Prod.snd := by
  unfold pendingAfter
  rw [List.filter_eq_self]
  intro task _
  rcases course task with _ | x <;> simp

/-- After a further round its calls are no longer pending. -/
theorem pendingAfter_concat (h : Shows calls course round tick) (done : List Tick) :
    (pendingAfter calls course done).filter (fun task => (round.lookup task).isNone) =
      pendingAfter calls course (done ++ [tick]) := by
  unfold pendingAfter
  rw [List.filter_filter]
  refine List.filter_congr fun task htask => ?_
  obtain ⟨c, hc, rfl⟩ := List.mem_map.mp htask
  rw [h c hc]
  rcases course c.2 with _ | ⟨t, e⟩
  · simp
  · by_cases ht : t = tick <;> simp [ht]

/-! ### All rounds -/

/-- Every course that ends does so at one of the ticks. -/
def EndsWithin (calls : Calls) (course : Nat → Course) (ticks : List Tick) : Prop :=
  ∀ c ∈ calls, ∀ x, course c.2 = some x → x.1 ∈ ticks

/-- Every call has ended once none is pending. -/
theorem all_ended_of_pendingAfter {done : List Tick} (h : pendingAfter calls course done = []) :
    ∀ c ∈ calls, ∃ x, course c.2 = some x ∧ x.1 ∈ done := by
  intro c hc
  have hno := List.filter_eq_nil_iff.mp h c.2 (List.mem_map_of_mem hc)
  rcases hx : course c.2 with _ | x
  · simp [hx] at hno
  · exact ⟨x, rfl, by simpa [hx] using hno⟩

theorem coursesOf_all_isSome :
    (coursesOf calls course).all (·.2.isSome) = true ↔ ∀ c ∈ calls, ∃ x, course c.2 = some x := by
  simp [coursesOf, Option.isSome_iff_exists]

/-- With no round left, a pending call never ends. -/
theorem not_all_ended_of_pending {done : List Tick} {p : Nat} (he : EndsWithin calls course (done ++ []))
    (hp : p ∈ pendingAfter calls course done) : ¬ (coursesOf calls course).all (·.2.isSome) = true := by
  intro hall
  obtain ⟨htask, hpend⟩ := List.mem_filter.mp hp
  obtain ⟨c, hc, rfl⟩ := List.mem_map.mp htask
  obtain ⟨x, hx⟩ := coursesOf_all_isSome.mp hall c hc
  have hd := he c hc x hx
  rw [List.append_nil] at hd
  simp [hx, hd] at hpend

variable {R : Tick → Round} {ended : Round}

/-- Strictly, the first round with a failure decides. -/
theorem await_strict (done ticks : List Tick) (hR : ∀ t ∈ ticks, Shows calls course (R t) t)
    (hn : (done ++ ticks).Nodup) (he : EndsWithin calls course (done ++ ticks)) :
    await kind .strict calls ended (pendingAfter calls course done) [] (ticks.map R) =
      match ticks.findSome? fun t => (coursesOf calls course).findSome? (failureAt? kind t) with
      | some f => some (.error f)
      | none =>
        if (coursesOf calls course).all (·.2.isSome) then some (gather kind calls ended []) else none := by
  induction ticks generalizing done with
  | nil =>
    cases hp : pendingAfter calls course done with
    | nil =>
      have hall := coursesOf_all_isSome.mpr fun c hc => (all_ended_of_pendingAfter hp c hc).imp fun _ h => h.1
      simp only [await, List.findSome?_nil]
      rw [if_pos hall]
    | cons p ps =>
      simp only [List.map_nil, await, List.findSome?_nil]
      rw [if_neg (not_all_ended_of_pending he (p := p) (by rw [hp]; simp))]
  | cons t ticks ih =>
    cases hp : pendingAfter calls course done with
    | nil =>
      -- nothing is pending, so nothing fails in the rounds that are left
      have hend := all_ended_of_pendingAfter hp
      have hall := coursesOf_all_isSome.mpr fun c hc => (hend c hc).imp fun _ h => h.1
      have hnone : (t :: ticks).findSome? (fun t => (coursesOf calls course).findSome? (failureAt? kind t)) = none := by
        rw [List.findSome?_eq_none_iff]
        intro t' ht'
        rw [List.findSome?_eq_none_iff]
        intro c' hc'
        obtain ⟨c, hc, rfl⟩ := List.mem_map.mp hc'
        rw [Option.eq_none_iff_forall_ne_some]
        intro f hf
        obtain ⟨g, hg, -⟩ := failureAt?_eq_some.mp hf
        obtain ⟨x, hx, hd⟩ := hend c hc
        obtain rfl : x = (t', .error g) := Option.some.inj (hx.symm.trans hg)
        exact (List.nodup_append.mp hn).2.2 _ hd _ ht' rfl
      rw [hnone]
      simp only [await]
      rw [if_pos hall]
    | cons p ps =>
      have hs := hR t List.mem_cons_self
      simp only [List.map_cons, await, List.findSome?_cons]
      rw [sift_strict hs]
      cases (coursesOf calls course).findSome? (failureAt? kind t) with
      | some f => rfl
      | none =>
        simp only
        rw [← hp, pendingAfter_concat hs]
        have hsplit : done ++ t :: ticks = (done ++ [t]) ++ ticks := by simp
        exact ih (done ++ [t]) (fun t' ht' => hR t' (List.mem_cons_of_mem _ ht')) (hsplit ▸ hn) (hsplit ▸ he)

theorem skippedAt_eq_nil (h : ∀ c ∈ calls, ∀ f, course c.2 ≠ some (tick, .error f)) :
    skippedAt kind course tick place calls = [] := by
  unfold skippedAt
  rw [List.filterMap_eq_nil_iff]
  intro c hc
  have hmem : c.1 ∈ calls := List.fst_mem_of_mem_zipIdx hc
  rw [Option.map_eq_none_iff, Option.eq_none_iff_forall_ne_some]
  intro f hf
  obtain ⟨g, hg, -⟩ := failureAt?_eq_some.mp hf
  exact h c.1 hmem g hg

theorem skippedAfter_append (done ticks : List Tick) :
    skippedAfter kind calls course (done ++ ticks) =
      skippedAfter kind calls course done ++ skippedAfter kind calls course ticks := by
  simp [skippedAfter]

/-- Otherwise every round is waited for, and all failures are skipped. -/
theorem await_bestEffort (done ticks : List Tick) (hR : ∀ t ∈ ticks, Shows calls course (R t) t)
    (hn : (done ++ ticks).Nodup) (he : EndsWithin calls course (done ++ ticks)) :
    await kind .bestEffort calls ended (pendingAfter calls course done) (skippedAfter kind calls course done)
        (ticks.map R) =
      if (coursesOf calls course).all (·.2.isSome)
      then some (gather kind calls ended (skippedAfter kind calls course (done ++ ticks))) else none := by
  induction ticks generalizing done with
  | nil =>
    cases hp : pendingAfter calls course done with
    | nil =>
      have hall := coursesOf_all_isSome.mpr fun c hc => (all_ended_of_pendingAfter hp c hc).imp fun _ h => h.1
      simp only [await, List.append_nil]
      rw [if_pos hall]
    | cons p ps =>
      simp only [List.map_nil, await]
      rw [if_neg (not_all_ended_of_pending he (p := p) (by rw [hp]; simp))]
  | cons t ticks ih =>
    cases hp : pendingAfter calls course done with
    | nil =>
      -- nothing is pending, so the rounds that are left show no failure to skip
      have hend := all_ended_of_pendingAfter hp
      have hall := coursesOf_all_isSome.mpr fun c hc => (hend c hc).imp fun _ h => h.1
      have hrest : skippedAfter kind calls course (t :: ticks) = [] := by
        unfold skippedAfter
        rw [List.flatMap_eq_nil_iff]
        intro t' ht'
        refine skippedAt_eq_nil fun c hc f hf => ?_
        obtain ⟨x, hx, hd⟩ := hend c hc
        obtain rfl : x = (t', .error f) := Option.some.inj (hx.symm.trans hf)
        exact (List.nodup_append.mp hn).2.2 _ hd _ ht' rfl
      simp only [await]
      rw [if_pos hall, skippedAfter_append, hrest, List.append_nil]
    | cons p ps =>
      have hs := hR t List.mem_cons_self
      have hstep : skippedAfter kind calls course done ++ skippedAt kind course t 0 calls =
          skippedAfter kind calls course (done ++ [t]) := by
        rw [skippedAfter_append]
        simp [skippedAfter]
      have hsplit : done ++ t :: ticks = (done ++ [t]) ++ ticks := by simp
      simp only [List.map_cons, await]
      rw [sift_bestEffort hs]
      simp only
      rw [← hp, pendingAfter_concat hs, hstep, hsplit]
      exact ih (done ++ [t]) (fun t' ht' => hR t' (List.mem_cons_of_mem _ ht')) (hsplit ▸ hn) (hsplit ▸ he)

/-! ### Gathering -/

/-- The failures skipped are those of the calls that fail, each under its place. -/
def Skips (kind : Capability) (calls : Calls) (course : Nat → Course) (skipped : Skipped) : Prop :=
  ∀ place f, skipped.lookup place = some f ↔
    ∃ c, calls[place]? = some c ∧ failure? kind (c.1, course c.2) = some f

theorem mem_skippedAfter {ticks : List Tick} {f : Fault} :
    (place, f) ∈ skippedAfter kind calls course ticks ↔
      ∃ t ∈ ticks, ∃ c, calls[place]? = some c ∧ failureAt? kind t (c.1, course c.2) = some f := by
  simp only [skippedAfter, skippedAt, List.mem_flatMap, List.mem_filterMap, Option.map_eq_some_iff, Prod.mk.injEq]
  refine exists_congr fun t => and_congr_right fun _ => ?_
  constructor
  · rintro ⟨⟨c, i⟩, hc, g, hg, rfl, rfl⟩
    exact ⟨c, List.mem_zipIdx_iff_getElem?.mp hc, hg⟩
  · rintro ⟨c, hc, hf⟩
    exact ⟨(c, place), List.mem_zipIdx_iff_getElem?.mpr hc, f, hf, rfl, rfl⟩

theorem failure?_eq_some {c : ProviderRef × Course} {f : Fault} :
    failure? kind c = some f ↔ ∃ t, failureAt? kind t c = some f := by
  obtain ⟨p, _ | ⟨t, g | r⟩⟩ := c <;> simp [failure?, failureAt?]

theorem lookup_eq_some_iff_mem {α β : Type} [DecidableEq α] {l : List (α × β)} {a : α} {b : β}
    (h : ∀ b b', (a, b) ∈ l → (a, b') ∈ l → b = b') : l.lookup a = some b ↔ (a, b) ∈ l := by
  constructor
  · intro hl
    obtain ⟨l₁, l₂, rfl, -⟩ := List.lookup_eq_some_iff.mp hl
    simp
  · intro hm
    have hs : (l.lookup a).isSome := List.lookup_isSome_iff.mpr ⟨(a, b), hm, beq_self_eq_true a⟩
    obtain ⟨b', hb'⟩ := Option.isSome_iff_exists.mp hs
    obtain ⟨l₁, l₂, hl, -⟩ := List.lookup_eq_some_iff.mp hb'
    rw [hb', h b' b (by rw [hl]; simp) hm]

theorem skips_skippedAfter {ticks : List Tick} (he : EndsWithin calls course ticks) :
    Skips kind calls course (skippedAfter kind calls course ticks) := by
  intro place f
  rw [lookup_eq_some_iff_mem, mem_skippedAfter]
  · constructor
    · rintro ⟨t, -, c, hc, hf⟩
      exact ⟨c, hc, failure?_eq_some.mpr ⟨t, hf⟩⟩
    · rintro ⟨c, hc, hf⟩
      obtain ⟨t, ht⟩ := failure?_eq_some.mp hf
      obtain ⟨g, hg, -⟩ := failureAt?_eq_some.mp ht
      exact ⟨t, he c (List.mem_of_getElem? hc) _ hg, c, hc, ht⟩
  · intro b b' hb hb'
    obtain ⟨t, -, c, hc, hf⟩ := mem_skippedAfter.mp hb
    obtain ⟨t', -, c', hc', hf'⟩ := mem_skippedAfter.mp hb'
    obtain rfl : c = c' := Option.some.inj (hc.symm.trans hc')
    have h := failure?_eq_some.mpr ⟨t, hf⟩
    exact Option.some.inj (h.symm.trans (failure?_eq_some.mpr ⟨t', hf'⟩))

theorem results_eq (hE : ∀ c ∈ calls, ended.lookup c.2 = (course c.2).map Prod.snd)
    (hS : ∀ i c, calls[i]? = some c → skipped.lookup (place + i) = failure? kind (c.1, course c.2)) :
    results ended skipped place calls = (coursesOf calls course).filterMap success? := by
  induction calls generalizing place with
  | nil => rfl
  | cons c calls ih =>
    obtain ⟨p, task⟩ := c
    have hE' : ended.lookup task = (course task).map Prod.snd := hE (p, task) List.mem_cons_self
    have hS' : skipped.lookup place = failure? kind (p, course task) := hS 0 (p, task) rfl
    have hrest : results ended skipped (place + 1) calls = (coursesOf calls course).filterMap success? := by
      refine ih (fun c hc => hE c (List.mem_cons_of_mem _ hc)) fun i c hc => ?_
      rw [← hS (i + 1) c (by simpa using hc)]
      congr 1
      omega
    simp only [coursesOf, List.map_cons, List.filterMap_cons]
    rcases hx : course task with _ | ⟨t, f | r⟩ <;> rw [hx] at hE' hS'
    · simp only [results, hS', hE', failure?, success?, Option.map_none]
      exact hrest
    · simp only [results, hS', failure?, success?]
      exact hrest
    · simp only [results, hS', hE', failure?, success?, Option.map_some]
      rw [hrest]
      rfl

/-- The skipped failure of the least place is the first in order of registration. -/
theorem first_skipped (hS : Skips kind calls course skipped) :
    ((skipped.map Prod.fst).min?.bind fun place => skipped.lookup place) =
      (coursesOf calls course).findSome? (failure? kind) := by
  unfold coursesOf
  rw [List.findSome?_map]
  cases hm : (skipped.map Prod.fst).min? with
  | none =>
    rw [List.min?_eq_none_iff, List.map_eq_nil_iff] at hm
    subst hm
    rw [Option.bind_none, eq_comm, List.findSome?_eq_none_iff]
    intro c hc
    rw [Option.eq_none_iff_forall_ne_some]
    intro f hf
    obtain ⟨i, hi⟩ := List.mem_iff_getElem?.mp hc
    simpa using (hS i f).mpr ⟨c, hi, hf⟩
  | some m =>
    obtain ⟨hmem, hmin⟩ := List.min?_eq_some_iff.mp hm
    have hkey : ∀ i f, skipped.lookup i = some f → m ≤ i := by
      intro i f hf
      obtain ⟨l₁, l₂, rfl, -⟩ := List.lookup_eq_some_iff.mp hf
      exact hmin i (by simp)
    obtain ⟨x, hx, hxm⟩ := List.mem_map.mp hmem
    have hs : (skipped.lookup m).isSome := List.lookup_isSome_iff.mpr ⟨x, hx, by simp [hxm]⟩
    obtain ⟨f, hf⟩ := Option.isSome_iff_exists.mp hs
    obtain ⟨c, hc, hcf⟩ := (hS m f).mp hf
    rw [Option.bind_some, hf, eq_comm, List.findSome?_eq_some_iff]
    obtain ⟨hlt, hget⟩ := List.getElem?_eq_some_iff.mp hc
    refine ⟨calls.take m, c, calls.drop (m + 1), ?_, hcf, fun c' hc' => ?_⟩
    · rw [← hget, List.getElem_cons_drop, List.take_append_drop]
    · obtain ⟨i, hi, rfl⟩ := List.mem_take_iff_getElem.mp hc'
      rw [Option.eq_none_iff_forall_ne_some]
      intro g hg
      have hle := hkey i g ((hS i g).mpr ⟨_, List.getElem?_eq_getElem (by omega), hg⟩)
      omega

theorem gather_eq (hE : ∀ c ∈ calls, ended.lookup c.2 = (course c.2).map Prod.snd)
    (hS : Skips kind calls course skipped) :
    gather kind calls ended skipped = settled kind (coursesOf calls course) := by
  have hS' : ∀ i c, calls[i]? = some c → skipped.lookup (0 + i) = failure? kind (c.1, course c.2) := by
    intro i c hc
    rw [Nat.zero_add]
    refine Option.ext fun f => (hS i f).trans ⟨?_, fun hf => ⟨c, hc, hf⟩⟩
    rintro ⟨c', hc', hf⟩
    obtain rfl : c' = c := Option.some.inj (hc'.symm.trans hc)
    exact hf
  rw [gather, results_eq hE hS', first_skipped hS]
  rfl

/-! ### The verdict -/

theorem flatten_lookup (ticks : List Tick) (hR : ∀ t ∈ ticks, Shows calls course (R t) t) {c : ProviderRef × Nat}
    (hc : c ∈ calls) :
    (ticks.map R).flatten.lookup c.2 = (course c.2).bind fun x => if x.1 ∈ ticks then some x.2 else none := by
  induction ticks with
  | nil => rcases course c.2 with _ | x <;> simp
  | cons t ticks ih =>
    rw [List.map_cons, List.flatten_cons, List.lookup_append, hR t List.mem_cons_self c hc,
      ih fun t' ht' => hR t' (List.mem_cons_of_mem _ ht')]
    rcases course c.2 with _ | ⟨t', e⟩
    · rfl
    · by_cases ht : t' = t <;> simp [ht]

theorem findSome?_ticks {ticks : List Tick} (hs : ticks.Pairwise (· < ·)) (he : EndsWithin calls course ticks) :
    (ticks.findSome? fun t => (coursesOf calls course).findSome? (failureAt? kind t)) =
      (firstFailureTick? (coursesOf calls course)).bind fun t =>
        (coursesOf calls course).findSome? (failureAt? kind t) := by
  have hno : ∀ t, (∀ t', firstFailureTick? (coursesOf calls course) = some t' → t < t') →
      (coursesOf calls course).findSome? (failureAt? kind t) = none := by
    intro t hlt
    rw [List.findSome?_eq_none_iff]
    intro c hc
    rw [Option.eq_none_iff_forall_ne_some]
    intro f hf
    obtain ⟨g, hg, -⟩ := failureAt?_eq_some.mp hf
    have htick := Course.failureTick?_eq_some.mpr ⟨g, hg⟩
    obtain ⟨t', ht'⟩ : ∃ t', firstFailureTick? (coursesOf calls course) = some t' := by
      rw [← Option.ne_none_iff_exists', ne_eq, firstFailureTick?_eq_none]
      exact fun h => by rw [h c hc] at htick; cases htick
    exact Nat.not_lt_of_le ((firstFailureTick?_eq_some.mp ht').2 c hc t htick) (hlt t' ht')
  cases hT : firstFailureTick? (coursesOf calls course) with
  | none =>
    rw [Option.bind_none, List.findSome?_eq_none_iff]
    exact fun t _ => hno t fun t' ht' => by rw [hT] at ht'; cases ht'
  | some T =>
    obtain ⟨f, hf⟩ := exists_failureAt? kind hT
    obtain ⟨⟨c', hc', hcT⟩, -⟩ := firstFailureTick?_eq_some.mp hT
    obtain ⟨c, hc, rfl⟩ := List.mem_map.mp hc'
    obtain ⟨g, hg⟩ := Course.failureTick?_eq_some.mp hcT
    obtain ⟨before, later, rfl⟩ := List.append_of_mem (he c hc _ hg)
    rw [Option.bind_some, hf, List.findSome?_eq_some_iff]
    refine ⟨before, T, later, rfl, hf, fun t ht => hno t fun t' ht' => ?_⟩
    obtain rfl : T = t' := Option.some.inj (hT.symm.trans ht')
    exact (List.pairwise_append.mp hs).2.2 t ht T List.mem_cons_self

/-- **Waiting round by round reaches the closed form**, whatever the pattern of arrivals. -/
theorem verdict_eq (policy : Policy) {ticks : List Tick} (hs : ticks.Pairwise (· < ·))
    (hR : ∀ t ∈ ticks, Shows calls course (R t) t) (he : EndsWithin calls course ticks) :
    verdict kind policy calls (ticks.map R) = (closedForm kind policy (coursesOf calls course)).map Prod.snd := by
  have hn : ([] ++ ticks).Nodup := hs.imp Nat.ne_of_lt
  have hE : ∀ c ∈ calls, (ticks.map R).flatten.lookup c.2 = (course c.2).map Prod.snd := by
    intro c hc
    rw [flatten_lookup ticks hR hc]
    rcases hx : course c.2 with _ | x
    · rfl
    · simp [he c hc x hx]
  unfold verdict
  rw [← pendingAfter_nil calls course]
  cases policy with
  | strict =>
    rw [await_strict [] ticks hR hn he, findSome?_ticks hs he]
    cases hT : firstFailureTick? (coursesOf calls course) with
    | some T =>
      obtain ⟨f, hf⟩ := exists_failureAt? kind hT
      rw [closedForm_of_failure hT, Option.bind_some, hf]
      rfl
    | none =>
      -- no call fails, so there is nothing to skip
      have hS : Skips kind calls course [] := by
        intro place f
        refine ⟨fun h => absurd h (by simp), fun ⟨c, hc, hf⟩ => ?_⟩
        obtain ⟨t, ht⟩ := failure?_eq_some.mp hf
        obtain ⟨g, hg, -⟩ := failureAt?_eq_some.mp ht
        have hno := firstFailureTick?_eq_none.mp hT _ (List.mem_map_of_mem (List.mem_of_getElem? hc))
        rw [Course.failureTick?_eq_some.mpr ⟨g, hg⟩] at hno
        cases hno
      rw [closedForm_of_no_failure fun _ => hT, gather_eq hE hS, Option.bind_none]
      simp only
      split <;> rfl
  | bestEffort =>
    have hskip : skippedAfter kind calls course [] = [] := rfl
    rw [← hskip, await_bestEffort [] ticks hR hn he, List.nil_append, gather_eq hE (skips_skippedAfter he),
      closedForm_of_no_failure (by simp)]
    split <;> rfl

end FanOut

end Orchestra
