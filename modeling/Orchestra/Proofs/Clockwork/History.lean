import Mathlib.Data.List.Nodup
import Orchestra.Proofs.Clockwork.Turn
import Orchestra.Proofs.FanOut.Rounds
import Orchestra.Service.Operation

/-!
# Orchestra.Proofs.Clockwork.History — what a clockwork knows of the past

A clockwork keeps when and how tasks ended, and when sources were cancelled first.  Whatever is added within a tick bears
the tick (`Within`), and time only adds to what is known (`Grows`), so that the past can be read off any later clockwork
(`course_of_grows`, `cancelledAt?_of_grows`).  What a fan-out sees of its calls decides it in the closed form of their
courses (`look_eq`).
-/

namespace Orchestra

/-- Leaving out repetitions makes an ascending list strictly ascending. -/
theorem pairwise_lt_eraseDups : ∀ {ts : List Nat}, ts.Pairwise (· ≤ ·) → ts.eraseDups.Pairwise (· < ·)
  | [], _ => by simp
  | t :: ts, h => by
    obtain ⟨ht, hts⟩ := List.pairwise_cons.mp h
    rw [List.eraseDups_cons, List.pairwise_cons]
    refine ⟨fun u hu => ?_, pairwise_lt_eraseDups (hts.filter _)⟩
    obtain ⟨hu, hne⟩ := List.mem_filter.mp (List.mem_eraseDups.mp hu)
    have hle := ht u hu
    have hne : u ≠ t := by simpa using hne
    omega
termination_by ts => ts.length
decreasing_by exact Nat.lt_succ_of_le (List.length_filter_le _ _)

namespace Clockwork

variable {c c' c'' : Clockwork} {since : Tick}

/-- When and how a task ended, as the call of a provider. -/
def course (c : Clockwork) (task : Nat) : Course :=
  (c.ended.find? (·.task == task)).bind fun e => e.call?.map (e.tick, ·)

/-- When the source of a token was first cancelled, if it was. -/
def cancelledAt? (c : Clockwork) : Token → Option Tick
  | .none => none
  | .source name => c.cancelled.lookup name

theorem isCancelled_eq (c : Clockwork) (t : Token) : c.isCancelled t = (c.cancelledAt? t).isSome := by
  cases t with
  | none => rfl
  | source name =>
    simp only [isCancelled, Token.isCancelled, cancelledSources, cancelledAt?]
    induction c.cancelled with
    | nil => rfl
    | cons x xs ih =>
      rw [List.map_cons, List.contains_cons, ih, List.lookup_cons]
      cases name == x.1 <;> rfl

/-- A source that was cancelled stays cancelled. -/
theorem isCancelled_of_append {t : Token}
    (hmore : ∃ more, c'.cancelled = c.cancelled ++ more ∧ ∀ x ∈ more, x.2 = c.now) (h : c.isCancelled t = true) :
    c'.isCancelled t = true := by
  obtain ⟨more, hmore, -⟩ := hmore
  rw [isCancelled_eq] at h ⊢
  cases t with
  | none => exact h
  | source name =>
    simp only [cancelledAt?, hmore, List.lookup_append, Option.isSome_or] at h ⊢
    rw [h, Bool.true_or]

theorem not_cancelled_before {t : Token}
    (hmore : ∃ more, c'.cancelled = c.cancelled ++ more ∧ ∀ x ∈ more, x.2 = c.now) (h : c'.isCancelled t = false) :
    c.isCancelled t = false := by
  by_contra hc
  rw [isCancelled_of_append hmore (Bool.not_eq_false _ ▸ hc)] at h
  cases h

theorem mem_of_cancelledAt? {t : Token} {tick : Tick} (h : c.cancelledAt? t = some tick) :
    ∃ name, t = .source name ∧ (name, tick) ∈ c.cancelled := by
  cases t with
  | none => cases h
  | source name =>
    obtain ⟨l₁, l₂, hl, -⟩ := List.lookup_eq_some_iff.mp h
    exact ⟨name, rfl, by rw [hl]; simp⟩

/-! ### Tasks are told apart by their numbers -/

/-- The numbers of all tasks, those that have ended last. -/
def ids (c : Clockwork) : List Nat := c.tasks.map Task.id ++ c.ended.map Ended.task

/-- No number is given twice, and the next one is new. -/
structure Numbered (c : Clockwork) : Prop where
  nodup : c.ids.Nodup
  issued : ∀ i ∈ c.ids, i < c.nextTask

theorem Numbered.of_perm (h : c.Numbered) (hids : c'.ids.Perm c.ids) (hnext : c'.nextTask = c.nextTask) :
    c'.Numbered :=
  ⟨hids.nodup_iff.mpr h.nodup, fun i hi => hnext ▸ h.issued i (hids.mem_iff.mp hi)⟩

theorem Numbered.tasks_nodup (h : c.Numbered) : (c.tasks.map Task.id).Nodup := (List.nodup_append.mp h.nodup).1

theorem Numbered.ended_nodup (h : c.Numbered) : (c.ended.map Ended.task).Nodup := (List.nodup_append.mp h.nodup).2.1

/-- A task that has ended is gone. -/
theorem Numbered.not_ended (h : c.Numbered) {t : Task} {e : Ended} (ht : t ∈ c.tasks) (he : e ∈ c.ended) :
    t.id ≠ e.task :=
  (List.nodup_append.mp h.nodup).2.2 t.id (List.mem_map_of_mem ht) e.task (List.mem_map_of_mem he)

theorem ids_without {t : Task} (h : c.Numbered) (ht : t ∈ c.tasks) : c.ids.Perm (t.id :: (c.without t).ids) := by
  have hmap : (c.without t).tasks.map Task.id = (c.tasks.map Task.id).erase t.id := by
    rw [h.tasks_nodup.erase_eq_filter, List.filter_map]
    rfl
  have hmem : t.id ∈ c.tasks.map Task.id := List.mem_map_of_mem ht
  unfold ids
  rw [hmap]
  exact (List.perm_cons_erase hmem).append_right _

/-- A turn keeps the number of its task. -/
theorem Turn.ids {t : Task} {size : Nat} (turn : Turn t size c c') : c'.ids.Perm (t.id :: c.ids) := by
  unfold Clockwork.ids
  obtain ⟨o, htasks, hended⟩ | ⟨wake, moves, last, -, htasks, hended⟩ := turn.went
  · rw [htasks, hended, List.map_append, ← List.append_assoc]
    exact List.perm_append_comm
  · rw [htasks, hended, List.map_append, List.map_cons, List.map_nil, List.append_assoc]
    exact List.perm_middle

theorem Numbered.step (h : c.Numbered) (hstep : c.step = some c') : c'.Numbered := by
  obtain ⟨t, ht, -, turn⟩ := turn_of_step hstep
  exact h.of_perm (turn.ids.trans (ids_without h ht).symm) turn.nextTask

theorem Numbered.settle (h : c.Numbered) : c.settle.Numbered :=
  settle_induction (fun _ _ h hstep => h.step hstep) h

/-! ### What happens within a tick bears the tick -/

/-- Everything that was added to what is known was added at this tick. -/
structure Within (c c' : Clockwork) : Prop where
  now : c'.now = c.now
  ended : ∃ more, c'.ended = c.ended ++ more ∧ ∀ e ∈ more, e.tick = c.now
  cancelled : ∃ more, c'.cancelled = c.cancelled ++ more ∧ ∀ x ∈ more, x.2 = c.now

theorem Within.refl (c : Clockwork) : Within c c := ⟨rfl, ⟨[], by simp, by simp⟩, ⟨[], by simp, by simp⟩⟩

theorem Within.trans (h : Within c c') (h' : Within c' c'') : Within c c'' := by
  obtain ⟨es, hes, hes'⟩ := h.ended
  obtain ⟨xs, hxs, hxs'⟩ := h.cancelled
  obtain ⟨es₂, hes₂, hes₂'⟩ := h'.ended
  obtain ⟨xs₂, hxs₂, hxs₂'⟩ := h'.cancelled
  rw [h.now] at hes₂' hxs₂'
  exact ⟨h'.now.trans h.now,
    ⟨es ++ es₂, by rw [hes₂, hes, List.append_assoc], List.forall_mem_append.mpr ⟨hes', hes₂'⟩⟩,
    ⟨xs ++ xs₂, by rw [hxs₂, hxs, List.append_assoc], List.forall_mem_append.mpr ⟨hxs', hxs₂'⟩⟩⟩

theorem Turn.within {t : Task} {size : Nat} (turn : Turn t size c c') : Within c c' := by
  refine ⟨turn.now, ?_, turn.cancelled⟩
  obtain ⟨o, -, hended⟩ | ⟨wake, moves, last, -, -, hended⟩ := turn.went
  · exact ⟨[⟨t.id, c.now, o⟩], hended, by simp⟩
  · exact ⟨[], by rw [hended, List.append_nil], by simp⟩

theorem within_step (h : c.step = some c') : Within c c' := by
  obtain ⟨t, -, -, turn⟩ := turn_of_step h
  exact ⟨turn.within.now, turn.within.ended, turn.within.cancelled⟩

theorem within_settle (c : Clockwork) : Within c c.settle :=
  settle_induction (fun _ _ h hstep => h.trans (within_step hstep)) (Within.refl c)

/-- What is known belongs to the past, and tasks that ended are kept in the order in which they did. -/
structure Timely (c : Clockwork) : Prop where
  ended : ∀ e ∈ c.ended, e.tick ≤ c.now
  sorted : c.ended.Pairwise (·.tick ≤ ·.tick)
  cancelled : ∀ x ∈ c.cancelled, x.2 ≤ c.now

theorem Timely.within (h : c.Timely) (hw : Within c c') : c'.Timely := by
  obtain ⟨es, hes, hes'⟩ := hw.ended
  obtain ⟨xs, hxs, hxs'⟩ := hw.cancelled
  refine ⟨?_, ?_, ?_⟩
  · rw [hes, hw.now]
    exact List.forall_mem_append.mpr ⟨h.ended, fun e he => Nat.le_of_eq (hes' e he)⟩
  · rw [hes]
    refine List.pairwise_append.mpr ⟨h.sorted, ?_, fun e he e' he' => by rw [hes' e' he']; exact h.ended e he⟩
    exact List.pairwise_of_forall_mem_list fun e he e' he' => Nat.le_of_eq ((hes' e he).trans (hes' e' he').symm)
  · rw [hxs, hw.now]
    exact List.forall_mem_append.mpr ⟨h.cancelled, fun x hx => Nat.le_of_eq (hxs' x hx)⟩

theorem Timely.without (h : c.Timely) (t : Task) : (c.without t).Timely := ⟨h.ended, h.sorted, h.cancelled⟩

/-- The clockwork at another tick. -/
def at_ (c : Clockwork) (tick : Tick) : Clockwork := { c with now := tick }

theorem Timely.at_ (h : c.Timely) {tick : Tick} (hle : c.now ≤ tick) : (c.at_ tick).Timely :=
  ⟨fun e he => Nat.le_trans (h.ended e he) hle, h.sorted, fun x hx => Nat.le_trans (h.cancelled x hx) hle⟩

/-! ### Time adds to what is known -/

/-- Nothing that was added to what is known is older than the tick. -/
structure Grows (since : Tick) (c c' : Clockwork) : Prop where
  ended : ∃ more, c'.ended = c.ended ++ more ∧ ∀ e ∈ more, since ≤ e.tick
  cancelled : ∃ more, c'.cancelled = c.cancelled ++ more ∧ ∀ x ∈ more, since ≤ x.2

theorem Grows.refl (since : Tick) (c : Clockwork) : Grows since c c := ⟨⟨[], by simp, by simp⟩, ⟨[], by simp, by simp⟩⟩

theorem Grows.trans (h : Grows since c c') (h' : Grows since c' c'') : Grows since c c'' := by
  obtain ⟨es, hes, hes'⟩ := h.ended
  obtain ⟨xs, hxs, hxs'⟩ := h.cancelled
  obtain ⟨es₂, hes₂, hes₂'⟩ := h'.ended
  obtain ⟨xs₂, hxs₂, hxs₂'⟩ := h'.cancelled
  exact ⟨⟨es ++ es₂, by rw [hes₂, hes, List.append_assoc], List.forall_mem_append.mpr ⟨hes', hes₂'⟩⟩,
    ⟨xs ++ xs₂, by rw [hxs₂, hxs, List.append_assoc], List.forall_mem_append.mpr ⟨hxs', hxs₂'⟩⟩⟩

theorem Grows.mono {since' : Tick} (h : Grows since c c') (hle : since' ≤ since) : Grows since' c c' := by
  obtain ⟨es, hes, hes'⟩ := h.ended
  obtain ⟨xs, hxs, hxs'⟩ := h.cancelled
  exact ⟨⟨es, hes, fun e he => Nat.le_trans hle (hes' e he)⟩, ⟨xs, hxs, fun x hx => Nat.le_trans hle (hxs' x hx)⟩⟩

theorem Within.grows (h : Within c c') (hle : since ≤ c.now) : Grows since c c' := by
  obtain ⟨es, hes, hes'⟩ := h.ended
  obtain ⟨xs, hxs, hxs'⟩ := h.cancelled
  exact ⟨⟨es, hes, fun e he => hes' e he ▸ hle⟩, ⟨xs, hxs, fun x hx => hxs' x hx ▸ hle⟩⟩

/-- The first cancellation of a source stays the first. -/
theorem Grows.cancelledAt? (h : Grows since c c') {t : Token} {tick : Tick} (ht : c.cancelledAt? t = some tick) :
    c'.cancelledAt? t = some tick := by
  obtain ⟨xs, hxs, -⟩ := h.cancelled
  cases t with
  | none => cases ht
  | source name =>
    have ht : c.cancelled.lookup name = some tick := ht
    simp only [Clockwork.cancelledAt?, hxs, List.lookup_append, ht, Option.some_or]

theorem course_eq_some (h : c.Numbered) {task : Nat} {tick : Tick} {y : Ending} :
    c.course task = some (tick, y) ↔ ∃ e ∈ c.ended, e.task = task ∧ e.tick = tick ∧ e.call? = some y := by
  unfold course
  simp only [Option.bind_eq_some_iff, Option.map_eq_some_iff, Prod.mk.injEq]
  constructor
  · rintro ⟨e, he, y', hy', htick, rfl⟩
    exact ⟨e, List.mem_of_find?_eq_some he, by simpa using List.find?_some he, htick, hy'⟩
  · rintro ⟨e, he, htask, htick, hy⟩
    refine ⟨e, ?_, y, hy, htick, rfl⟩
    obtain ⟨e', he'⟩ : ∃ e', c.ended.find? (·.task == task) = some e' := by
      rw [← Option.isSome_iff_exists, List.find?_isSome]
      exact ⟨e, he, by simpa using htask⟩
    have htask' : e'.task = task := by simpa using List.find?_some he'
    have hinj := List.inj_on_of_nodup_map h.ended_nodup (List.mem_of_find?_eq_some he') he (htask'.trans htask.symm)
    rw [he', hinj]

/-- Later on the past looks as it did when it was present. -/
theorem course_of_grows (hc : c.Timely) (hn : c.Numbered) (hn' : c'.Numbered) (h : Grows (c.now + 1) c c') (task : Nat) :
    c.course task = (c'.course task).upTo c.now := by
  obtain ⟨es, hes, hes'⟩ := h.ended
  refine Option.ext fun ⟨tick, y⟩ => ?_
  rw [Course.upTo_eq_some, course_eq_some hn, course_eq_some hn']
  constructor
  · rintro ⟨e, he, htask, rfl, hy⟩
    exact ⟨⟨e, by rw [hes]; exact List.mem_append_left _ he, htask, rfl, hy⟩, hc.ended e he⟩
  · rintro ⟨⟨e, he, htask, rfl, hy⟩, hle⟩
    rw [hes] at he
    rcases List.mem_append.mp he with he | he
    · exact ⟨e, he, htask, rfl, hy⟩
    · exact absurd (hes' e he) (Nat.not_le_of_lt (Nat.lt_succ_of_le hle))

theorem cancelledAt?_of_grows (hc : c.Timely) (h : Grows (c.now + 1) c c') (t : Token) :
    c.cancelledAt? t = (c'.cancelledAt? t).filter (· ≤ c.now) := by
  obtain ⟨xs, hxs, hxs'⟩ := h.cancelled
  cases t with
  | none => rfl
  | source name =>
    simp only [cancelledAt?, hxs, List.lookup_append]
    cases hl : c.cancelled.lookup name with
    | some tick =>
      obtain ⟨l₁, l₂, hmem, -⟩ := List.lookup_eq_some_iff.mp hl
      have hle : tick ≤ c.now := hc.cancelled (name, tick) (by rw [hmem]; simp)
      simp [Option.filter, hle]
    | none =>
      rw [Option.none_or, eq_comm, Option.filter_eq_none_iff]
      intro tick htick hle
      obtain ⟨l₁, l₂, hmem, -⟩ := List.lookup_eq_some_iff.mp htick
      have hlt := hxs' (name, tick) (by rw [hmem]; simp)
      exact Nat.not_le_of_lt hlt (of_decide_eq_true hle)

/-! ### What a fan-out sees -/

/-- The courses of calls, as far as they are known. -/
def courses (c : Clockwork) (calls : FanOut.Calls) : Courses := FanOut.coursesOf calls c.course

theorem courses_of_grows (hc : c.Timely) (hn : c.Numbered) (hn' : c'.Numbered) (h : Grows (c.now + 1) c c')
    (calls : FanOut.Calls) : c.courses calls = FanOut.known c.now (c'.courses calls) := by
  unfold courses FanOut.coursesOf FanOut.known
  rw [List.map_map]
  exact List.map_congr_left fun call _ => by rw [course_of_grows hc hn hn' h]; rfl

/-- The rounds show each call at the tick at which it ended. -/
theorem verdict_rounds (hc : c.Timely) (hn : c.Numbered) (kind : Capability) (policy : Policy) (calls : FanOut.Calls) :
    FanOut.verdict kind policy calls (c.rounds calls) =
      (FanOut.closedForm kind policy (c.courses calls)).map Prod.snd := by
  have hmem {call : ProviderRef × Nat} (hcall : call ∈ calls) {e : Ended} (htask : e.task = call.2) :
      e ∈ c.ended.filter (fun e => calls.any (·.2 == e.task)) ↔ e ∈ c.ended := by
    rw [List.mem_filter, and_iff_left]
    exact List.any_eq_true.mpr ⟨call, hcall, by simp [htask]⟩
  unfold rounds courses
  refine FanOut.verdict_eq policy (pairwise_lt_eraseDups ?_) (fun tick _ call hcall => ?_) fun call hcall x hx => ?_
  · exact List.pairwise_map.mpr (hc.sorted.filter _)
  · refine Option.ext fun y => ?_
    rw [FanOut.lookup_eq_some_iff_mem]
    · simp only [List.mem_filterMap, Option.map_eq_some_iff, Prod.mk.injEq, Option.bind_eq_some_iff]
      constructor
      · rintro ⟨e, he, y', hy, htask, rfl⟩
        obtain ⟨he, htick⟩ := List.mem_filter.mp he
        refine ⟨(tick, y'), (course_eq_some hn).mpr ⟨e, (hmem hcall htask).mp he, htask, ?_, hy⟩, by simp⟩
        simpa using htick
      · rintro ⟨⟨tick', y'⟩, hcourse, hy⟩
        obtain ⟨rfl, rfl⟩ : tick' = tick ∧ y' = y := by simpa using hy
        obtain ⟨e, he, htask, htick, hy⟩ := (course_eq_some hn).mp hcourse
        exact ⟨e, List.mem_filter.mpr ⟨(hmem hcall htask).mpr he, by simp [htick]⟩, y', hy, htask, rfl⟩
    · intro y y' hy hy'
      simp only [List.mem_filterMap, Option.map_eq_some_iff, Prod.mk.injEq] at hy hy'
      obtain ⟨e, he, z, hz, htask, rfl⟩ := hy
      obtain ⟨e', he', z', hz', htask', rfl⟩ := hy'
      have hinj := List.inj_on_of_nodup_map hn.ended_nodup (List.mem_of_mem_filter (List.mem_of_mem_filter he))
        (List.mem_of_mem_filter (List.mem_of_mem_filter he')) (htask.trans htask'.symm)
      rw [← hinj, hz] at hz'
      exact Option.some.inj hz'
  · obtain ⟨e, he, htask, htick, -⟩ := (course_eq_some hn).mp (show c.course call.2 = some (x.1, x.2) from hx)
    rw [List.mem_eraseDups]
    exact List.mem_map.mpr ⟨e, (hmem hcall htask).mpr he, htick⟩

/-- **A look at the calls**: a cancelled token decides, and otherwise the closed form of what is known. -/
theorem look_eq (hc : c.Timely) (hn : c.Numbered) (f : Flight) (token : Token) :
    f.look c token =
      if (c.cancelledAt? token).isSome then some (.error (.cancelled (some f.kind.value) none))
      else (FanOut.closedForm f.kind f.policy (c.courses f.calls)).map Prod.snd := by
  unfold Flight.look FanOut.look
  rw [isCancelled_eq, verdict_rounds hc hn]

end Clockwork

end Orchestra
