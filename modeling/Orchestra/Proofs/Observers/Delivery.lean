import Mathlib.Algebra.Order.Group.Nat
import Mathlib.Algebra.Order.BigOperators.Group.List
import Orchestra.Proofs.Dispatch.Launch
import Orchestra.Proofs.Runs.Retention

/-!
# Orchestra.Proofs.Observers.Delivery — whoever waits for hooks is given the outcome in the end

However long hooks take, it is a finite time.  Tellings are numbered in turn (`Numbered`), so that the hook that an operation
waits for is told when that is due, whatever else is told in the meantime; then fewer hooks are left to be told, or the one
that it waits for is still due (`Awaits`).  So the caller is given what has been decided, if time goes on
(`delivers_decided`).
-/

namespace Orchestra

namespace World

variable {u v w : World} {op : Nat} {o : Operation} {answer : Except Fault Answer} {left : Nat} {limit : Tick}

/-! ### Tellings are numbered in turn -/

/-- Every hook that is being told, and every hook that an operation waits for, is one of those that were told so far. -/
structure Numbered (w : World) : Prop where
  tellings : ∀ t ∈ w.tellings, t.number < w.told
  waiting : ∀ o ∈ w.operations, o.WaitsBelow w.told

theorem Retains.numbered (h : Retains w v) (hw : w.Numbered) : v.Numbered := by
  refine ⟨fun t ht => ?_, fun o ho telling queue outcome hs => ?_⟩
  · obtain ⟨new, htellings, hnew⟩ := h.tellings
    rw [htellings] at ht
    rcases List.mem_append.mp ht with ht | ht
    · exact Nat.lt_of_lt_of_le (hw.tellings t ht) h.told
    · exact (hnew t ht).2
  · obtain ⟨o', ho', hstage⟩ | hbelow := h.waiting o ho
    · exact Nat.lt_of_lt_of_le (hw.waiting o' ho' telling queue outcome (hstage.trans hs)) h.told
    · exact hbelow telling queue outcome hs

/-- Where fewer hooks are told than before, and nothing else is to do with them. -/
theorem Numbered.fewer (h : w.Numbered) (htold : v.told = w.told) (hoperations : v.operations = w.operations)
    (htellings : ∀ t ∈ v.tellings, ∃ t' ∈ w.tellings, t'.number = t.number) : v.Numbered := by
  refine ⟨fun t ht => ?_, ?_⟩
  · obtain ⟨t', ht', hnumber⟩ := htellings t ht
    rw [htold, ← hnumber]
    exact h.tellings t' ht'
  · rw [htold, hoperations]
    exact h.waiting

theorem Numbered.same (h : w.Numbered) (htold : v.told = w.told) (hoperations : v.operations = w.operations)
    (htellings : v.tellings = w.tellings) : v.Numbered :=
  h.fewer htold hoperations fun t ht => ⟨t, htellings ▸ ht, rfl⟩

theorem foldl_log_told (es : List Entry) (w : World) :
    (es.foldl log w).told = w.told ∧ (es.foldl log w).service = w.service := by
  induction es generalizing w with
  | nil => exact ⟨rfl, rfl⟩
  | cons e es ih => exact ih (w.log e)

/-- What is being told after a turn was being told before, and is due when it was. -/
theorem tellAll_tellings {t : Telling} (ht : t ∈ w.tellAll.tellings) :
    ∃ t' ∈ w.tellings, t'.number = t.number ∧ t'.due = t.due := by
  obtain ⟨t', ht', hafter⟩ := List.mem_filterMap.mp ht
  unfold Telling.after? at hafter
  split at hafter
  · cases hafter
  · cases hafter
    exact ⟨t', ht', rfl, rfl⟩

theorem tellAll_numbered (h : w.Numbered) : w.tellAll.Numbered :=
  h.fewer (foldl_log_told _ w).1 (told_tellAll w).operations fun _ ht =>
    let ⟨t', ht', hnumber, _⟩ := tellAll_tellings ht
    ⟨t', ht', hnumber⟩

/-- **Whatever occurs**, tellings are numbered in turn. -/
theorem occur_numbered (h : w.Numbered) (x : Occurrence) : (w.occur x).Numbered := by
  cases x with
  | begin order token => exact (begin_retains w order token).numbered h
  | resume op =>
    simp only [occur]
    cases ho : w.operations[op]? with
    | none => exact h
    | some o =>
      simp only [Option.bind_some]
      cases hr : w.resume op o with
      | none => exact h
      | some v => exact (resume_retains hr).numbered h
  | abort op =>
    obtain ⟨clock, tellings, hretains, -, hfewer⟩ := abort_retains w op
    refine hretains.numbered ?_
    exact h.fewer rfl rfl fun t ht => ⟨t, hfewer t ht, rfl⟩
  | clock c => exact h.same rfl rfl rfl
  | tell => exact tellAll_numbered h
  | due =>
    obtain ⟨clock, ledger, owned, hdue, -⟩ := doDue_eq w
    rw [occur, hdue]
    exact h.same rfl rfl rfl
  | deed d =>
    obtain ⟨clock, ledger, owned, hdeed, -⟩ := doDeed_eq w d
    rw [occur, hdeed]
    exact h.same rfl rfl rfl
  | register p kinds =>
    simp only [occur]
    split
    · exact h
    · next hr =>
      obtain ⟨ledger, -, rfl⟩ := register_eq hr
      exact h.same rfl rfl rfl
  | dispose handle =>
    obtain ⟨clock, ledger, owned, hdispose, -⟩ := dispose_eq w handle
    rw [occur, hdispose]
    exact h.same rfl rfl rfl
  | onDispose handle callback => exact h.same rfl rfl rfl
  | listen stream name reaction => exact (listen_retains w stream name reaction).numbered h
  | unlisten name => exact (unlisten_retains w name).numbered h
  | setContext extras fields =>
    simp only [occur]
    split
    · exact h
    · next hset => exact (setContext_retains hset).numbered h
  | commit extras fields =>
    simp only [occur]
    split
    · exact h
    · next hcommit => exact (commit_retains hcommit).numbered h
  | clearContext => exact h.same rfl rfl rfl
  | close =>
    obtain ⟨clock, ledger, owned, tellings, hclose, -, hfewer⟩ := close_eq w
    rw [occur, hclose]
    exact h.fewer rfl rfl fun t ht => ⟨t, hfewer t ht, rfl⟩

theorem after_numbered (h : w.Numbered) (occs : List Occurrence) : (w.after occs).Numbered := by
  induction occs generalizing w with
  | nil => exact h
  | cons x occs ih => exact ih (occur_numbered h x)

theorem unfold_numbered (h : w.Numbered) (xs : List Happening) : (w.unfold xs).Numbered := by
  obtain ⟨occs, hoccs⟩ := Unfolds.follows ⟨xs, rfl⟩
  exact hoccs ▸ after_numbered h occs

/-! ### Waiting for hooks -/

/-- The operation waits for a hook, and no more than so many come after it; if it is as many, the hook is due by that
tick. -/
def Waits (w : World) (op : Nat) (answer : Except Fault Answer) (left : Nat) (limit : Tick) : Prop :=
  ∃ o telling queue outcome, w.operations[op]? = some o ∧ o.stage = .relaying telling queue outcome ∧
    answerTo o.assistant outcome = answer ∧ queue.length ≤ left ∧
    (queue.length = left → ∀ t ∈ w.tellings, t.number = telling → t.due ≤ limit)

/-- The caller of an operation has been given the answer, or is to get it when hooks have been told. -/
structure Awaits (w : World) (op : Nat) (answer : Except Fault Answer) (left : Nat) (limit : Tick) : Prop where
  numbered : w.Numbered
  waits : (∃ tick, w.outcome? op = some (answer, tick)) ∨ w.Waits op answer left limit

theorem conclude_awaits {assistant : Option AssistantRecord} {outcome : Except Fault Result} (hnumbered : w.Numbered)
    (ho : w.operations[op]? = some o) :
    Awaits (w.conclude op assistant outcome) op (answerTo assistant outcome) left limit := by
  refine ⟨(conclude_retains w op assistant outcome).numbered hnumbered, .inl ?_⟩
  obtain ⟨-, h⟩ | ⟨a, rfl, -, h⟩ := w.conclude_cases op assistant outcome
  · rw [h]
    exact ⟨_, outcome?_complete ho⟩
  · rw [h]
    refine ⟨_, outcome?_complete (o := o) ?_⟩
    rw [(told_fire w _).operations, ho]

/-- An outcome that is passed on to hooks and then to the caller; fewer hooks come after the next one. -/
theorem relay_awaits {assistant : Option AssistantRecord} {outcome : Except Fault Result} (hnumbered : w.Numbered)
    (ho : w.operations[op]? = some o) (ha : o.assistant = assistant) (queue : List Hook) (hleft : queue.length ≤ left) :
    Awaits (w.relay op assistant outcome queue) op (answerTo assistant outcome) left limit := by
  induction queue generalizing w with
  | nil => exact conclude_awaits hnumbered ho
  | cons hook rest ih =>
    rw [relay_cons]
    split
    · exact conclude_awaits hnumbered ho
    · next hooks _ =>
      split
      · have hlogged : (w.log (.hook hook)).Numbered := hnumbered.same rfl rfl rfl
        exact ih hlogged ho (Nat.le_of_succ_le hleft)
      · -- the hook is told under the next number
        have hstage : ∀ o : Operation, ({ o with stage := .relaying w.told rest outcome } : Operation).WaitsBelow
            (w.told + 1) := by
          intro o telling queue outcome h
          cases h
          exact Nat.lt_succ_self w.told
        have hretains := (tell_retains w hook (hooks.delay w.told hook)).trans
          (modify_retains _ op fun o => .inr (hstage o))
        have hthere := getElem?_modifyOperation (w := (w.tell hook (hooks.delay w.told hook)).1) ho
          fun o => { o with stage := .relaying w.told rest outcome }
        refine ⟨hretains.numbered hnumbered, .inr ?_⟩
        refine ⟨_, w.told, rest, outcome, hthere, rfl, by rw [← ha], Nat.le_of_succ_le hleft, fun heq => ?_⟩
        exact absurd heq (Nat.ne_of_lt hleft)

/-- What has nothing to do with the operation: hooks that it does not wait for may be told. -/
theorem Awaits.of_same (h : Awaits w op answer left limit) (hnumbered : v.Numbered)
    (ho : v.operations[op]? = w.operations[op]?)
    (htellings : ∀ t ∈ v.tellings, (∃ t' ∈ w.tellings, t'.number = t.number ∧ t'.due = t.due) ∨ w.told ≤ t.number) :
    Awaits v op answer left limit := by
  refine ⟨hnumbered, ?_⟩
  obtain ⟨tick, hdone⟩ | ⟨o, telling, queue, outcome, hthere, hstage, hanswer, hleft, hdue⟩ := h.waits
  · exact .inl ⟨tick, by rw [outcome?, ho]; exact hdone⟩
  · refine .inr ⟨o, telling, queue, outcome, ho.trans hthere, hstage, hanswer, hleft, fun heq t ht hnumber => ?_⟩
    obtain ⟨t', ht', hnumber', hdue'⟩ | hnew := htellings t ht
    · rw [← hdue']
      exact hdue heq t' ht' (hnumber'.trans hnumber)
    · -- a new telling has another number
      have hbelow := h.numbered.waiting o (List.mem_of_getElem? hthere) telling queue outcome hstage
      omega

/-- An operation that gets on gives the caller the outcome, or goes on to the next hook; others do not touch it. -/
theorem Awaits.resume (h : Awaits w op answer left limit) {op' : Nat} (ho : w.operations[op']? = some o)
    (hv : w.resume op' o = some v) : Awaits v op answer left limit := by
  have hretains := resume_retains hv
  have hworks := works_resume hv
  by_cases hop : op' = op
  · subst hop
    obtain ⟨tick, hdone⟩ | ⟨o', telling, queue, outcome, hthere, hstage, hanswer, hleft, -⟩ := h.waits
    · rw [outcome?, ho, Option.bind_some, running_of_resume hv] at hdone
      cases hdone
    · cases ho.symm.trans hthere
      cases resume_resumes hv with
      | cutShort stage _ | sends stage | lands stage _ _ | decides stage _ _ => rw [hstage] at stage; cases stage
      | relays stage =>
        rw [hstage] at stage
        cases stage
        rw [← hanswer]
        exact relay_awaits h.numbered ho rfl queue hleft
  · obtain ⟨new, htellings, hnew⟩ := hretains.tellings
    refine h.of_same (hretains.numbered h.numbered) ?_ fun t ht => ?_
    · cases hthere : w.operations[op]? with
      | none =>
        obtain ⟨tick, hdone⟩ | ⟨o', telling, queue, outcome, hthere', -⟩ := h.waits
        · rw [outcome?, hthere] at hdone; cases hdone
        · rw [hthere] at hthere'; cases hthere'
      | some o' => exact hworks.others op o' (fun heq => hop (Option.some.inj heq).symm) hthere
    · rw [htellings] at ht
      rcases List.mem_append.mp ht with ht | ht
      · exact .inl ⟨t, ht, rfl, rfl⟩
      · exact .inr (hnew t ht).1

theorem Awaits.settle (h : Awaits w op answer left limit) : Awaits w.settle op answer left limit := by
  refine settle_induction (P := fun u => Awaits u op answer left limit) ?_ (fun u hu => ?_) fun u v op' o hu ho hv =>
    hu.resume ho hv
  · obtain ⟨clock, ledger, owned, hdue, -⟩ := doDue_eq w
    rw [hdue]
    exact h.of_same (h.numbered.same rfl rfl rfl) rfl fun t ht => .inl ⟨t, ht, rfl, rfl⟩
  · have htasks : Awaits { u with clock := u.clock.settle } op answer left limit :=
      hu.of_same (hu.numbered.same rfl rfl rfl) rfl fun t ht => .inl ⟨t, ht, rfl, rfl⟩
    have htold := told_tellAll { u with clock := u.clock.settle }
    refine htasks.of_same (tellAll_numbered htasks.numbered) ?_ fun t ht => .inl (tellAll_tellings ht)
    rw [ran, htold.operations]

theorem Awaits.at_ (h : Awaits w op answer left limit) (tick : Tick) : Awaits (w.at_ tick) op answer left limit :=
  h.of_same (h.numbered.same rfl rfl rfl) rfl fun t ht => .inl ⟨t, ht, rfl, rfl⟩

/-- There is a tick by which all that is being told is due. -/
theorem all_due (w : World) : ∃ last : Tick, ∀ t ∈ w.tellings, t.due ≤ last :=
  ⟨(w.tellings.map fun t => (t.due : Nat)).sum, fun _ ht => List.le_sum_of_mem (M := Nat) (List.mem_map_of_mem ht)⟩

/-- At rest, what is due next is due by that tick, or fewer hooks are left. -/
theorem Waits.due (h : w.Waits op answer left limit) (hrest : w.AtRest) :
    ∃ tick, w.nextDue = some tick ∧ w.now < tick ∧
      (tick ≤ limit ∨ ∃ left' < left, ∃ limit', w.Waits op answer left' limit') := by
  obtain ⟨o, telling, queue, outcome, hthere, hstage, hanswer, hleft, hdue⟩ := h
  -- it cannot get on, so its hook is still being told
  have hnone := resumeFirst_eq_none.mp hrest.resume op o hthere
  simp only [World.resume, hstage, Hooks.all_goesOn, if_true] at hnone
  have htelling : w.isTelling telling = true := by
    by_contra hnot
    rw [if_neg hnot] at hnone
    cases hnone
  obtain ⟨t, ht, hnumber⟩ := List.any_eq_true.mp htelling
  have hmem : t.due ∈ w.clock.nextDue.toList ++ w.tellings.map (·.due) ++ w.agenda.map Prod.fst :=
    List.mem_append_left _ (List.mem_append_right _ (List.mem_map_of_mem ht))
  cases hnext : w.nextDue with
  | none =>
    rw [nextDue, List.min?_eq_none_iff] at hnext
    rw [hnext] at hmem
    cases hmem
  | some tick =>
    have hle : tick ≤ t.due := (List.min?_eq_some_iff.mp hnext).2 _ hmem
    refine ⟨tick, rfl, (hrest.nextDue hnext).1, ?_⟩
    by_cases heq : queue.length = left
    · exact .inl (Nat.le_trans hle (hdue heq t ht (beq_iff_eq.mp hnumber)))
    · obtain ⟨last, hlast⟩ := w.all_due
      exact .inr ⟨queue.length, Nat.lt_of_le_of_ne hleft heq, last, o, telling, queue, outcome, hthere, hstage, hanswer,
        Nat.le_refl _, fun _ t ht _ => hlast t ht⟩

/-! ### Delivery -/

/-- The caller of the operation gets the answer, if time goes on. -/
def Delivers (w : World) (op : Nat) (answer : Except Fault Answer) : Prop :=
  ∃ N, ∀ n, N ≤ n → ∃ v tick, passTime (fun w => (w.outcome? op).isSome) n w = (v, true) ∧
    v.outcome? op = some (answer, tick)

theorem delivers_at_once {tick : Tick} (h : w.settle.outcome? op = some (answer, tick)) : w.Delivers op answer := by
  refine ⟨1, fun n hn => ⟨w.settle, tick, ?_, h⟩⟩
  obtain ⟨n, rfl⟩ := Nat.exists_eq_add_of_le' hn
  rw [passTime_succ, if_pos (by rw [h]; rfl)]

theorem delivers_later {tick : Tick} (hnone : w.settle.outcome? op = none) (hnext : w.settle.nextDue = some tick)
    (h : (w.settle.at_ tick).Delivers op answer) : w.Delivers op answer := by
  obtain ⟨N, hlater⟩ := h
  refine ⟨N + 1, fun n hn => ?_⟩
  obtain ⟨n, rfl⟩ := Nat.exists_eq_add_of_le' (Nat.le_of_add_left_le hn)
  rw [passTime_succ, if_neg (by rw [hnone]; decide), hnext]
  exact hlater n (Nat.le_of_succ_le_succ hn)

/-- **Whoever waits for hooks gets the answer**: with every tick at which something is due, fewer hooks are left, or the one
that the operation waits for comes closer. -/
theorem Awaits.delivers (h : Awaits w op answer left limit) : w.Delivers op answer := by
  induction left using Nat.strongRecOn generalizing w limit with
  | ind left fewer =>
    induction hn : (limit : Nat) - w.now using Nat.strongRecOn generalizing w with
    | ind n closer =>
      have hsettled := h.settle
      obtain ⟨tick, hdone⟩ | hwaits := hsettled.waits
      · exact delivers_at_once hdone
      · have hnone : w.settle.outcome? op = none := by
          obtain ⟨o, telling, queue, outcome, hthere, hstage, -⟩ := hwaits
          rw [outcome?, hthere, Option.bind_some, Operation.outcome?, hstage]
        obtain ⟨tick, hnext, hlt, hlimit | ⟨left', hleft, limit', hwaits'⟩⟩ := hwaits.due w.settle_rest
        · refine delivers_later hnone hnext (closer _ ?_ (hsettled.at_ tick) rfl)
          rw [settle_now] at hlt
          exact hn ▸ Nat.sub_lt_sub_left (Nat.lt_of_lt_of_le hlt hlimit) hlt
        · have hawaits : Awaits w.settle op answer left' limit' := ⟨hsettled.numbered, .inr hwaits'⟩
          exact delivers_later hnone hnext (fewer left' hleft (hawaits.at_ tick))

/-- **What has been decided is delivered**, however long hooks take. -/
theorem delivers_decided (h : w.Numbered) (hd : w.decided? op = some answer) : w.Delivers op answer := by
  obtain ⟨o, ho, hanswer⟩ := Option.bind_eq_some_iff.mp hd
  cases hstage : o.stage with
  | resolving _ _ _ | flying _ => rw [Operation.decided?, hstage] at hanswer; cases hanswer
  | done outcome tick =>
    rw [Operation.decided?, hstage] at hanswer
    cases hanswer
    have hdone : w.outcome? op = some (answer, tick) := by
      rw [outcome?, ho, Option.bind_some, Operation.outcome?, hstage]
    have hawaits : Awaits w op answer 0 w.now := ⟨h, .inl ⟨tick, hdone⟩⟩
    exact hawaits.delivers
  | relaying telling queue outcome =>
    rw [Operation.decided?, hstage] at hanswer
    cases hanswer
    obtain ⟨last, hlast⟩ := w.all_due
    have hwaits : w.Waits op (answerTo o.assistant outcome) queue.length last :=
      ⟨o, telling, queue, outcome, ho, hstage, rfl, Nat.le_refl _, fun _ t ht _ => hlast t ht⟩
    exact Awaits.delivers ⟨h, .inr hwaits⟩

end World

end Orchestra
