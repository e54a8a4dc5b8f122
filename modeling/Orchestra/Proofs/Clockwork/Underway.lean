import Orchestra.Proofs.Clockwork.Hindsight

/-!
# Orchestra.Proofs.Clockwork.Underway — a call that has begun runs to its own end

A call that has begun has ended as it was bound to, or it is still at a certain place of its reply (`Standing`).  Nobody
else's turn and nothing that occurs changes this (`Standing.within`); its own turns take it from one place to the next, at
the ticks at which they are due (`Standing.goOn`); and time does not pass it by (`Standing.at_`).
-/

namespace Orchestra

namespace Clockwork

variable {c c' : Clockwork} {t : Task} {token : Token} {start : Tick} {F : List Tick} {α : Type} {r : Reply α} {last : Finish}
  {read : Tick → Bool → Ending}

/-! ### The end of a call -/

/-- Whatever its end is told, a call ends with what it has answered, or with the fault that it is stopped by. -/
structure Answers (last : Finish) (read : Tick → Bool → Ending) : Prop where
  reads : ∀ cancelled tick, last.reads cancelled tick = some (read tick cancelled)
  failed : ∀ f cancelled tick, (last.failed f).reads cancelled tick = some (.error f)

/-- The call ends now, and with this. -/
def EndsNow (c c' : Clockwork) (t : Task) (y : Ending) : Prop :=
  ∃ e ∈ c'.ended, e.task = t.id ∧ e.tick = c.now ∧ e.call? = some y

theorem finish_endsNow {y : Ending} (h : last.reads (c.isCancelled t.token) c.now = some y) :
    EndsNow c (c.finish t last) t y := by
  have hrecord : ∀ (c₁ : Clockwork) (o : Except Fault Yield), c₁.now = c.now → Ended.call? ⟨t.id, c.now, o⟩ = some y →
      EndsNow c (c₁.record t.id o) t y := by
    intro c₁ o hnow ho
    refine ⟨⟨t.id, c₁.now, o⟩, List.mem_append_right _ (List.mem_singleton.mpr rfl), rfl, hnow, ?_⟩
    rw [hnow]
    exact ho
  cases last with
  | provider index reply =>
    rcases reply with f | f | x
    all_goals
      cases h
      exact hrecord _ _ rfl rfl
  | model index name written since reply =>
    refine hrecord c _ rfl ?_
    rw [← h]
    simp only [Finish.reads]
    rcases Bridge.finish name written (c.isCancelled t.token) (c.now - since) reply with f | x <;> rfl
  | prepare index reply => cases h
  | resolve reply => cases h
  | nothing => cases h

theorem isCancelled_cancel (c : Clockwork) (source : String) (token : Token) :
    (c.cancel source).isCancelled token = (Token.source source == token || c.isCancelled token) := by
  cases token with
  | none => rfl
  | source name =>
    unfold cancel
    split
    · next h =>
      rw [eq_comm, Bool.or_eq_right_iff_imp]
      intro heq
      rw [← beq_iff_eq.mp heq]
      exact h
    · have heq : (Token.source source == Token.source name) = (name == source) := by
        rw [Bool.eq_iff_iff, beq_iff_eq, beq_iff_eq, Token.source.injEq]
        exact eq_comm
      show ((c.cancelled ++ [(source, c.now)]).map Prod.fst).contains name = (_ || (c.cancelled.map Prod.fst).contains name)
      rw [heq, List.map_append, List.contains_append, Bool.or_comm]
      congr 1
      exact Bool.or_false _

/-- After all waiting a call ends at once. -/
theorem play_rest (ha : Answers last read) (r : Reply α) :
    EndsNow c (c.play t last r.rest) t (r.endingWith t.token (c.isCancelled t.token) (read c.now)) := by
  -- what is left once the call has cancelled a source, if it does
  have hcheck : ∀ c₁ : Clockwork, c₁.now = c.now →
      c₁.isCancelled t.token = (r.cancels t.token || c.isCancelled t.token) →
      EndsNow c (c₁.play t last (r.check.map .checkpoint).toList) t
        (r.endingWith t.token (c.isCancelled t.token) (read c.now)) := by
    intro c₁ hnow hcancelled
    unfold Reply.endingWith
    rw [← hcancelled, ← hnow]
    cases hr : r.check with
    | none =>
      obtain ⟨e, he, hid, htick, hcall⟩ := finish_endsNow (c := c₁) (t := t) (ha.reads _ _)
      exact ⟨e, he, hid, htick.trans hnow, hcall⟩
    | some operation =>
      simp only [Option.map_some, Option.toList_some, play, Token.check]
      have hisCancelled : t.token.isCancelled c₁.cancelledSources = c₁.isCancelled t.token := rfl
      rw [hisCancelled]
      cases hc : c₁.isCancelled t.token with
      | true =>
        obtain ⟨e, he, hid, htick, hcall⟩ := finish_endsNow (c := c₁) (t := t)
          (ha.failed (.cancelled operation none) _ _)
        exact ⟨e, he, hid, htick.trans hnow, hcall⟩
      | false =>
        obtain ⟨e, he, hid, htick, hcall⟩ := finish_endsNow (c := c₁) (t := t) (ha.reads _ _)
        rw [hc] at hcall
        exact ⟨e, he, hid, htick.trans hnow, hcall⟩
  unfold Reply.rest
  cases hr : r.cancel with
  | none =>
    refine hcheck c rfl ?_
    rw [Reply.cancels, hr]
    rfl
  | some source =>
    refine hcheck (c.cancel source) (by rw [cancel_eq]) ?_
    rw [Reply.cancels, hr, isCancelled_cancel]
    rfl

/-! ### Where a call stands -/

/-- A call that began at a tick follows a reply, which decides its course, and its end tells what it answers.  A call that
heeds its token begins only if it does not find it cancelled, and does not wait for that. -/
structure Plan (K : Firing → Course) (token : Token) (start : Tick) (heeds : Bool) (r : Reply α) (last : Finish)
    (read : Tick → Bool → Ending) : Prop where
  answers : Answers last read
  course : ∀ fires : Firing, (heeds = true → fires.found start = false) → K fires = r.courseUnder token start fires read
  patient : heeds = true → r.wait ≠ some .cancellation

/-- The place of its reply at which a call waits. -/
inductive Place (c : Clockwork) (token : Token) (start : Tick) (r : Reply α) (last : Finish) : TaskState → Prop
  | pausing (delay : r.delay ≠ 0) (le : c.now ≤ start + r.delay) :
      Place c token start r last (.waiting (.atTick (start + r.delay)) r.afterDelay last)
  | parked (wait : r.wait = some .forever) : Place c token start r last (.waiting .never r.rest last)
  | awaiting (wait : r.wait = some .cancellation) (le : start + r.delay ≤ c.now)
      (now : ∀ f, c.cancelledAt? token = some f → f = c.now) :
      Place c token start r last (.waiting .onCancellation r.rest last)

/-- The call has ended as it was bound to, or it waits at a place of its reply. -/
inductive Standing (c : Clockwork) (F : List Tick) (K : Firing → Course) (token : Token) (task : Nat) : Prop
  | ended (e : Ended) (y : Ending) (mem : e ∈ c.ended) (id : e.task = task) (call : e.call? = some y)
      (course : K (c.firing token F) = some (e.tick, y))
  | underway {α : Type} (r : Reply α) (last : Finish) (start : Tick) (heeds : Bool) (read : Tick → Bool → Ending)
      (plan : Plan K token start heeds r last read) (begun : start ≤ c.now)
      (missed : heeds = true → (c.firing token F).found start = false) (t : Task) (mem : t ∈ c.tasks) (id : t.id = task)
      (same : t.token = token) (place : Place c token start r last t.state)

/-- What has ended by now is not changed by a cancellation now. -/
def Steadfast (K : Firing → Course) : Prop :=
  ∀ (x : Tick × Ending) (now : Tick), K none = some x → x.1 ≤ now → K (some (now, false)) = some x

variable {K : Firing → Course} {task : Nat} {heeds : Bool}

/-- Others leave a call where it stands. -/
theorem Standing.within (h : c.Standing F K token task) (hK : Steadfast K) (hw : Within c c') (ht : c.Timely)
    (hF : c.Founded token F) (htasks : ∀ t ∈ c.tasks, t.id = task → t ∈ c'.tasks) : c'.Standing F K token task := by
  have hfiring := firing_within hw hF
  cases h with
  | ended e y mem id call course =>
    obtain ⟨more, hmore, -⟩ := hw.ended
    refine .ended e y (hmore ▸ List.mem_append_left _ mem) id call ?_
    rcases hfiring with hsame | ⟨hnone, hsome⟩
    · rw [hsame, course]
    · rw [hnone] at course
      rw [hsome]
      exact hK (e.tick, y) c.now course (ht.ended e mem)
  | underway r last start heeds read plan begun missed t mem id same place =>
    refine .underway r last start heeds read plan (hw.now.symm ▸ begun) (fun hh => ?_) t (htasks t mem id) id same ?_
    · rcases hfiring with hsame | ⟨-, hsome⟩
      · rw [hsame, missed hh]
      · rw [hsome, Firing.found_late begun]
    · generalize t.state = state at place
      cases place with
      | pausing delay le => exact .pausing delay (hw.now.symm ▸ le)
      | parked wait => exact .parked wait
      | awaiting wait le now =>
        refine .awaiting wait (hw.now.symm ▸ le) fun f hf => ?_
        rw [hw.now]
        rcases cancelledAt?_within hw token with hsame | ⟨-, hsome⟩
        · exact now f (hsame ▸ hf)
        · rw [hsome] at hf
          exact (Option.some.inj hf).symm

/-- Time passes no call by for which it is due. -/
theorem Standing.at_ (h : c.Standing F K token task) (hstep : c.step = none) {tick : Tick} (hle : c.now ≤ tick)
    (hdue : ∀ due, c.nextDue = some due → tick ≤ due) : (c.at_ tick).Standing F K token task := by
  cases h with
  | ended e y mem id call course => exact .ended e y mem id call course
  | underway r last start heeds read plan begun missed t mem id same place =>
    refine .underway r last start heeds read plan (Nat.le_trans begun hle) missed t mem id same ?_
    have hready := step_eq_none.mp hstep t mem
    rw [isReady] at hready
    generalize hstate : t.state = state at place hready
    cases place with
    | pausing delay le =>
      refine .pausing delay ?_
      obtain ⟨due, hdue'⟩ : ∃ due, c.nextDue = some due := by
        rw [← Option.ne_none_iff_exists', ne_eq, Clockwork.nextDue, List.min?_eq_none_iff]
        exact List.ne_nil_of_mem (List.mem_filterMap.mpr ⟨t, mem, by rw [hstate]⟩)
      exact Nat.le_trans (hdue due hdue') ((nextDue_eq_some hdue').2 t mem _ _ _ hstate)
    | parked wait => exact .parked wait
    | awaiting wait le now =>
      have hnone : c.cancelledAt? token = none := by
        rw [isCancelled_eq, same] at hready
        exact Option.isSome_eq_false_iff.mp hready |> Option.isNone_iff_eq_none.mp
      refine .awaiting wait (Nat.le_trans le hle) fun f hf => ?_
      rw [show (c.at_ tick).cancelledAt? token = c.cancelledAt? token from by cases token <;> rfl, hnone] at hf
      cases hf

/-! ### The turns of a call -/

/-- A call whose turn comes to an end has ended as it was bound to. -/
theorem Plan.ended (plan : Plan K t.token start heeds r last read) (hw : Within c c') (ht : c.Timely)
    (hF : c.Founded t.token F) (hle : start ≤ c.now)
    (hlt : heeds = true → start < c.now ∨ c.isCancelled t.token = false)
    (missed : heeds = true → (c.firing t.token F).found start = false)
    (hends : r.endsAt start (c'.cancelledAt? t.token) = some c.now)
    (h : EndsNow c c' t (r.endingWith t.token (c.isCancelled t.token) (read c.now))) :
    c'.Standing (c.findings t.token F) K t.token t.id := by
  obtain ⟨e, he, hid, htick, hcall⟩ := h
  refine .ended e _ he hid hcall ?_
  have hfires : (c'.firing t.token (c.findings t.token F)).map Prod.fst = c'.cancelledAt? t.token := by
    rw [firing, Option.map_map]
    exact Option.map_id'
  rw [plan.course _ fun hh => found_before hw hF hle (hlt hh) (missed hh), Reply.courseUnder, hfires, hends,
    Option.map_some, found_now hw ht hF, htick]

/-- A call whose delay is over ends now, or it waits for what it waits for. -/
theorem Plan.afterDelay (plan : Plan K t.token start heeds r last read) (ht : c.Timely) (hF : c.Founded t.token F)
    (hnow : c.now = start + r.delay) (hlt : heeds = true → start < c.now ∨ c.isCancelled t.token = false)
    (missed : heeds = true → (c.firing t.token F).found start = false) :
    (c.play t last r.afterDelay).Standing (c.findings t.token F) K t.token t.id := by
  have hle : start ≤ c.now := hnow ▸ Nat.le_add_right _ _
  have hmissed : ∀ {c'}, Within c c' → heeds = true → (c'.firing t.token (c.findings t.token F)).found start = false :=
    fun hw hh => found_before hw hF hle (hlt hh) (missed hh)
  -- it waits from now on
  have hsuspend : ∀ wake, Place c t.token start r last (.waiting wake r.rest last) →
      (c.suspend t wake r.rest last).Standing (c.findings t.token F) K t.token t.id := by
    intro wake place
    refine .underway r last start heeds read plan hle (hmissed (turn_suspend wake last (Nat.lt_succ_self _)).within)
      { t with state := .waiting wake r.rest last } (List.mem_append_right _ (List.mem_singleton.mpr rfl)) rfl rfl ?_
    generalize TaskState.waiting wake r.rest last = state at place
    cases place with
    | pausing delay le => exact .pausing delay le
    | parked wait => exact .parked wait
    | awaiting wait le now => exact .awaiting wait le now
  cases hwait : r.wait with
  | none =>
    have hmoves : r.afterDelay = r.rest := by rw [Reply.afterDelay, hwait]; rfl
    rw [hmoves]
    refine plan.ended (turn_play last _).within ht hF hle hlt missed ?_ (play_rest plan.answers r)
    rw [Reply.endsAt, hwait, hnow]
  | some wait =>
    have hmoves : r.afterDelay = wait.move :: r.rest := by rw [Reply.afterDelay, hwait]; rfl
    rw [hmoves]
    cases wait with
    | forever => exact hsuspend .never (.parked hwait)
    | cancellation =>
      have hnot : heeds ≠ true := fun hh => plan.patient hh hwait
      simp only [Wait.move, play]
      split
      · next hc =>
        obtain ⟨f, hf⟩ := Option.isSome_iff_exists.mp (isCancelled_eq c t.token ▸ hc)
        obtain ⟨name, hname, hmem⟩ := mem_of_cancelledAt? hf
        have hw : Within c (c.play t last r.rest) := (turn_play last _).within
        refine plan.ended hw ht hF hle hlt missed ?_ (play_rest plan.answers r)
        have hf' : (c.play t last r.rest).cancelledAt? t.token = some f :=
          (hw.grows (Nat.le_refl _)).cancelledAt? hf
        have hmax : max (start + r.delay) f = c.now := hnow ▸ Nat.max_eq_left (hnow ▸ ht.cancelled _ hmem)
        rw [Reply.endsAt, hwait, hf', Option.map_some, hmax]
      · next hc =>
        refine hsuspend .onCancellation (.awaiting hwait (Nat.le_of_eq hnow.symm) fun f hf => ?_)
        rw [isCancelled_eq, hf] at hc
        exact absurd rfl hc

/-- A call that begins now ends now, or it waits at its first place. -/
theorem Plan.moves (plan : Plan K t.token c.now heeds r last read) (ht : c.Timely)
    (hnot : heeds = true → c.isCancelled t.token = false) :
    (c.play t last r.moves).Standing (c.findings t.token []) K t.token t.id := by
  have hF : c.Founded t.token [] := fun _ => rfl
  have missed : heeds = true → (c.firing t.token []).found c.now = false := by
    intro hh
    have hnone := hnot hh
    rw [isCancelled_eq, Option.isSome_eq_false_iff, Option.isNone_iff_eq_none] at hnone
    rw [firing, hnone]
    rfl
  rw [Reply.moves_eq]
  split
  · next hd =>
    exact plan.afterDelay ht hF (by rw [hd]; rfl) (fun hh => .inr (hnot hh)) missed
  · next hd =>
    refine .underway r last c.now heeds read plan (Nat.le_refl _) (fun hh => ?_)
      { t with state := .waiting (.atTick (c.now + r.delay)) r.afterDelay last }
      (List.mem_append_right _ (List.mem_singleton.mpr rfl)) rfl rfl (.pausing hd (Nat.le_add_right _ _))
    exact found_before (turn_suspend (c := c) (t := t) _ last (Nat.lt_succ_self _)).within hF (Nat.le_refl _)
      (.inr (hnot hh)) (missed hh)

/-- A call that can still have a turn has its task, which waits at a place of its reply. -/
theorem Standing.token_eq (h : c.Standing F K token t.id) (hn : c.Numbered) (hmem : t ∈ c.tasks) : t.token = token := by
  cases h with
  | ended e y he hid hcall hcourse =>
    exact absurd hid.symm (hn.not_ended hmem he)
  | underway r last start heeds read plan begun missed t' hmem' hid same place =>
    rw [task_unique hn hmem hmem' hid.symm, same]

/-- **Its own turns** take a call to its end, at the ticks that its reply asks for. -/
theorem Standing.goOn (h : c.Standing F K token t.id) (hn : c.Numbered) (ht : c.Timely) (hF : c.Founded token F)
    (hmem : t ∈ c.tasks) (hready : c.isReady t = true) : (c.goOn t).Standing (c.findings token F) K token t.id := by
  have ht' := ht.without t
  obtain rfl := h.token_eq hn hmem
  cases h with
  | ended e y he hid hcall hcourse =>
    exact absurd hid.symm (hn.not_ended hmem he)
  | underway r last start heeds read plan begun missed t' hmem' hid same place =>
    obtain rfl := task_unique hn hmem hmem' hid.symm
    rw [isReady] at hready
    rw [Clockwork.goOn]
    generalize t.state = state at place hready
    cases place with
    | pausing delay le =>
      have hnow : (c.without t).now = start + r.delay := Nat.le_antisymm le (of_decide_eq_true hready)
      have hlt : start < (c.without t).now := by
        rw [hnow]
        exact Nat.lt_add_of_pos_right (Nat.pos_of_ne_zero delay)
      exact plan.afterDelay (c := c.without t) ht' hF hnow (fun _ => .inl hlt) missed
    | parked wait => cases hready
    | awaiting wait le now =>
      obtain ⟨f, hf⟩ := Option.isSome_iff_exists.mp (isCancelled_eq c t.token ▸ hready)
      have hw : Within (c.without t) ((c.without t).play t last r.rest) := (turn_play last _).within
      refine plan.ended (c := c.without t) hw ht' hF begun (fun hh => absurd wait (plan.patient hh)) missed ?_
        (play_rest plan.answers r)
      have hf' : ((c.without t).play t last r.rest).cancelledAt? t.token = some f :=
        (hw.grows (Nat.le_refl _)).cancelledAt? (c := c.without t) hf
      have hmax : max (start + r.delay) f = (c.without t).now := by
        rw [now f hf]
        exact Nat.max_eq_right le
      rw [Reply.endsAt, wait, hf', Option.map_some, hmax]

/-! ### The beginning of a call -/

theorem answers_scripted (index : Nat) (reply : Except Fault (Except Fault Result)) :
    Answers (.provider index reply) fun _ _ => reply.bind id :=
  ⟨fun _ _ => rfl, fun _ _ _ => rfl⟩

theorem answers_bridge (index : Nat) (name : String) (written : Writing) (since : Tick)
    (reply : Except Fault (Option ModelReply)) :
    Answers (.model index name written since reply) fun tick cancelled =>
      (Bridge.finish name written cancelled (tick - since) reply).map .chat :=
  ⟨fun _ _ => rfl, fun _ _ _ => rfl⟩

theorem steadfast_courseUnder (c : Clockwork) (kind : Capability) (payload : Payload) (context : Context) (token : Token)
    (index : Nat) : Steadfast (c.courseUnder kind payload context token index) := by
  intro x now h hle
  unfold courseUnder at h ⊢
  split at h
  · exact Provider.courseUnder_late h hle
  · exact h

/-- A scripted provider replies whether the token is cancelled or not. -/
theorem plan_scripted {kind : Capability} {payload : Payload} {context : Context} {index : Nat} {p : ScriptedProvider}
    (token : Token) (hp : c.providers[index]? = some (.scripted p)) :
    Plan (c.courseUnder kind payload context token index) token c.now false (p.script.reply p.record.calls)
      (.provider index ((p.script.reply p.record.calls).outcome.map fun build => build kind))
      fun _ _ => ((p.script.reply p.record.calls).outcome.map fun build => build kind).bind id := by
  refine ⟨answers_scripted _ _, fun fires _ => ?_, fun hh => absurd hh Bool.false_ne_true⟩
  simp only [courseUnder, hp, Provider.courseUnder]
  cases (p.script.reply p.record.calls).outcome <;> rfl

/-- A model is asked unless the token is cancelled, and has no token to wait for. -/
theorem plan_bridge {kind : Capability} {payload : Payload} {context : Context} {index : Nat} {b : ModelBridge}
    {messages : List (String × String)} (token : Token) (hp : c.providers[index]? = some (.bridge b))
    (hr : b.request false payload.message context = .ok messages) :
    Plan (c.courseUnder kind payload context token index) token c.now true (b.script.reply b.asked).withoutToken
      (.model index b.name b.written c.now (b.script.reply b.asked).outcome)
      fun tick cancelled =>
        (Bridge.finish b.name b.written cancelled (tick - c.now) (b.script.reply b.asked).outcome).map .chat := by
  refine ⟨answers_bridge _ _ _ _ _, fun fires hfound => ?_, fun _ hwait => ?_⟩
  · simp only [courseUnder, hp, Provider.courseUnder_bridge, hfound rfl, hr]
  · obtain ⟨_, -, hwait⟩ := Option.map_eq_some_iff.mp hwait
    cases hwait

/-- **A call that begins** ends as its provider and its token make it end, now or later. -/
theorem begin_standing (ht : c.Timely) (kind : Capability) (index : Nat) (payload : Payload) (context : Context) :
    (c.begin t (.call index kind payload context)).Standing (c.findings t.token [])
      (c.courseUnder kind payload context t.token index) t.token t.id := by
  have hF : c.Founded t.token [] := fun _ => rfl
  have hrecord : ∀ f, (∀ fires : Firing, fires.found c.now = c.isCancelled t.token →
      c.courseUnder kind payload context t.token index fires = some (c.now, .error f)) →
      (c.record t.id (.error f)).Standing (c.findings t.token []) (c.courseUnder kind payload context t.token index)
        t.token t.id := by
    intro f hcourse
    have turn : Turn t 0 c (c.record t.id (.error f)) := turn_record _
    exact .ended ⟨t.id, c.now, .error f⟩ (.error f) (List.mem_append_right _ (List.mem_singleton.mpr rfl)) rfl rfl
      (hcourse _ (found_now turn.within ht hF))
  simp only [begin]
  cases hp : c.providers[index]? with
  | none =>
    refine hrecord _ fun fires _ => ?_
    simp only [courseUnder, hp]
  | some p =>
    cases p with
    | scripted p =>
      let c₁ := (c.note index fun r => { r with calls := r.calls + 1 }).log
        (.call p.key kind payload context (c.isCancelled t.token) t.token.canBeCancelled)
      exact (plan_scripted t.token hp).moves (c := c₁) ⟨ht.ended, ht.sorted, ht.cancelled⟩ fun hh =>
        absurd hh Bool.false_ne_true
    | bridge b =>
      dsimp only
      split
      · next f hr =>
        refine hrecord f fun fires hfound => ?_
        simp only [courseUnder, hp, Provider.courseUnder_bridge, hfound, hr]
      · next messages hr =>
        have hnot : c.isCancelled t.token = false := (ModelBridge.canAsk_iff.mp ⟨_, hr⟩).going
        rw [hnot] at hr
        exact (plan_bridge t.token hp hr).moves
          (c := (c.modifyBridge index fun b => { b with asked := b.asked + 1 }).log _)
          ⟨ht.ended, ht.sorted, ht.cancelled⟩ fun _ => hnot

/-! ### What is known of a call -/

/-- **Where no task can run**, a call has ended by now exactly if it was bound to. -/
theorem Standing.course_eq (h : c.Standing F K token task) (hn : c.Numbered) (ht : c.Timely) (hstep : c.step = none) :
    c.course task = (K (c.firing token F)).upTo c.now := by
  cases h with
  | ended e y mem id call course =>
    rw [(course_eq_some hn).mpr ⟨e, mem, id, rfl, call⟩, course, eq_comm, Course.upTo_eq_some]
    exact ⟨rfl, ht.ended e mem⟩
  | underway r last start heeds read plan begun missed t mem id same place =>
    have hnone : c.course task = none := by
      rw [Option.eq_none_iff_forall_ne_some]
      rintro ⟨tick, y⟩ hy
      obtain ⟨e, he, htask, -⟩ := (course_eq_some hn).mp hy
      exact hn.not_ended mem he (id.trans htask.symm)
    have hready := step_eq_none.mp hstep t mem
    rw [isReady, same] at hready
    rw [hnone, plan.course _ missed, eq_comm, Option.eq_none_iff_forall_ne_some]
    rintro ⟨tick, y⟩ hy
    obtain ⟨hcourse, hle⟩ := Course.upTo_eq_some.mp hy
    obtain ⟨tick', hends, heq⟩ := Option.map_eq_some_iff.mp hcourse
    obtain rfl : tick' = tick := congrArg Prod.fst heq
    have hge := Reply.le_endsAt hends
    unfold Reply.endsAt at hends
    generalize t.state = state at place hready
    cases place with
    | pausing delay le => exact of_decide_eq_false hready (Nat.le_trans hge hle)
    | parked wait => simp [wait] at hends
    | awaiting wait le now =>
      have hno : c.cancelledAt? token = none := by
        rw [isCancelled_eq, Option.isSome_eq_false_iff, Option.isNone_iff_eq_none] at hready
        exact hready
      simp [wait, firing, hno] at hends

end Clockwork

end Orchestra
