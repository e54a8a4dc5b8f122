import Orchestra.Proofs.Clockwork.History

/-!
# Orchestra.Proofs.Clockwork.Foresight — how calls will end, from what they do

As long as its token is not cancelled, when and how a call ends depends only on its own moves: `foresee` reads it off them
and `Provider.assigned` off its provider's script.  Every task that has begun heads for what was foreseen (`Heads`), whatever
the other tasks do in between (`Foreseen.step`), and so, once settled, a clockwork knows of each call what was assigned to
it up to the present (`Foreseen.course_eq`).
-/

namespace Orchestra

/-- What a task ends with, as the call of a provider, that has made its moves by now while its token was not cancelled. -/
def Finish.ending? (now : Tick) : Finish → Option Ending
  | .provider _ reply => some (reply.bind id)
  | .model _ name written since reply => some ((Bridge.finish name written false (now - since) reply).map .chat)
  | .prepare _ (.error f) | .resolve (.error f) => some (.error f)
  | _ => none

/-- When and how a task ends that has these moves to make, from a tick on. -/
def foresee (last : Finish) (now : Tick) : List Move → Course
  | [] => (last.ending? now).map (now, ·)
  | .pause ticks :: rest => foresee last (now + ticks) rest
  | .park :: _ | .awaitCancellation :: _ => none
  | .cancel _ :: rest | .checkpoint _ :: rest => foresee last now rest

/-- When and how a call ends that begins at a tick and is replied to in this way; `read` makes an ending of the outcome. -/
def Reply.course {α : Type} (r : Reply α) (start : Tick) (read : Except Fault α → Ending) : Course :=
  if r.wait.isSome then none else some (start + r.delay, read r.outcome)

/-- The reply that takes a given course when it begins at tick zero. -/
def Reply.ofCourse : Course → Reply (Capability → Except Fault Result)
  | none => { wait := some .forever, outcome := .error .interrupted }
  | some (tick, ending) => { delay := tick, outcome := ending.map fun r _ => .ok r }

/-- Every course can be assigned. -/
theorem course_ofCourse (course : Course) (kind : Capability) :
    (Reply.ofCourse course).course 0 (fun reply => reply.bind fun build => build kind) = course := by
  rcases course with _ | ⟨tick, f | r⟩
  · rfl
  · simp [Reply.ofCourse, Reply.course, Except.map, Except.bind]
  · simp [Reply.ofCourse, Reply.course, Except.map, Except.bind]

theorem foresee_moves {α : Type} (r : Reply α) (last : Finish) (now : Tick) :
    foresee last now r.moves =
      if r.wait.isSome then none else (last.ending? (now + r.delay)).map (now + r.delay, ·) := by
  obtain ⟨delay, wait, cancel, check, outcome⟩ := r
  unfold Reply.moves
  by_cases hd : delay = 0
  · subst hd
    rcases wait with _ | _ | _ <;> rcases cancel with _ | source <;> rcases check with _ | operation <;> rfl
  · simp only [if_neg hd]
    rcases wait with _ | _ | _ <;> rcases cancel with _ | source <;> rcases check with _ | operation <;> rfl

theorem le_foresee {last : Finish} {moves : List Move} {now : Tick} {x : Tick × Ending}
    (h : foresee last now moves = some x) : now ≤ x.1 := by
  induction moves generalizing now with
  | nil =>
    obtain ⟨y, -, rfl⟩ := Option.map_eq_some_iff.mp h
    exact Nat.le_refl _
  | cons move rest ih =>
    cases move with
    | pause ticks => exact Nat.le_trans (Nat.le_add_right _ _) (ih h)
    | park => cases h
    | awaitCancellation => cases h
    | cancel source => exact ih h
    | checkpoint operation => exact ih h

/-- When and how the call of a provider ends that begins at a tick, if its token is not cancelled. -/
def Provider.assigned (kind : Capability) (payload : Payload) (context : Context) (start : Tick) : Provider → Course
  | .scripted p => (p.script.reply p.record.calls).course start fun reply => reply.bind fun build => build kind
  | .bridge b =>
    match b.request false payload.message context with
    | .error f => some (start, .error f)
    | .ok _ =>
      let r := b.script.reply b.asked
      r.course start fun reply => (Bridge.finish b.name b.written false r.delay reply).map .chat

namespace Clockwork

variable {c c' : Clockwork} {t : Task} {token : Token} {task : Nat} {course : Course} {kind : Capability}
  {payload : Payload} {context : Context}

/-- When and how the call of a provider ends that begins now, if its token is not cancelled. -/
def assigned (c : Clockwork) (kind : Capability) (payload : Payload) (context : Context) (index : Nat) : Course :=
  match c.providers[index]? with
  | some p => p.assigned kind payload context c.now
  | none => some (c.now, .error (.unsupported kind none))

/-! ### What others do makes no difference -/

theorem assigned_note {index : Nat} {f : ProviderRecord → ProviderRecord} (hf : ∀ r, (f r).calls = r.calls)
    (i : Nat) : (c.note index f).assigned kind payload context i = c.assigned kind payload context i := by
  unfold assigned note modifyScripted
  simp only [List.getElem?_modify]
  by_cases hi : index = i
  · rcases c.providers[i]? with _ | p | b
    · rfl
    · simp [hi, Provider.assigned, hf]
    · simp [hi]
  · simp [hi]

theorem assigned_record (id : Nat) (o : Except Fault Yield) (i : Nat) :
    (c.record id o).assigned kind payload context i = c.assigned kind payload context i :=
  rfl

theorem assigned_noteFailure (index i : Nat) :
    (c.noteFailure index).assigned kind payload context i = c.assigned kind payload context i :=
  assigned_note (f := fun r => { r with failed := r.failed ++ [c.now] }) (fun _ => rfl) i

theorem assigned_finish (last : Finish) (i : Nat) :
    (c.finish t last).assigned kind payload context i = c.assigned kind payload context i := by
  cases last with
  | provider index reply =>
    rcases reply with f | f | r
    · rw [finish, assigned_record, assigned_noteFailure]
    · simp only [finish, assigned_record, assigned_noteFailure]
      refine assigned_note ?_ i
      exact fun _ => rfl
    · simp only [finish, assigned_record]
      refine assigned_note ?_ i
      exact fun _ => rfl
  | model index name written since reply => rfl
  | prepare index reply =>
    cases reply with
    | error f => rfl
    | ok u =>
      simp only [finish, assigned_record]
      refine assigned_note ?_ i
      exact fun _ => rfl
  | resolve reply => rfl
  | nothing => rfl

theorem assigned_cancel (source : String) (i : Nat) :
    (c.cancel source).assigned kind payload context i = c.assigned kind payload context i := by
  rw [cancel_eq]
  rfl

theorem assigned_play (last : Finish) (moves : List Move) (i : Nat) :
    (c.play t last moves).assigned kind payload context i = c.assigned kind payload context i := by
  induction moves generalizing c last with
  | nil => exact assigned_finish last i
  | cons move rest ih =>
    cases move with
    | pause ticks => rfl
    | park => rfl
    | awaitCancellation =>
      simp only [play]
      split
      · exact ih last
      · rfl
    | cancel source => exact (ih last).trans (assigned_cancel source i)
    | checkpoint operation =>
      simp only [play]
      split
      · exact assigned_finish _ i
      · exact ih last

/-- Calling a provider uses up a reply of its own. -/
theorem assigned_begin {index i : Nat} (hne : index ≠ i) :
    (c.begin t (.call index kind payload context)).assigned kind payload context i =
      c.assigned kind payload context i := by
  have hmodify (f : Provider → Provider) : (c.providers.modify index f)[i]? = c.providers[i]? := by
    simp [hne]
  simp only [begin]
  split
  · rw [assigned_play]
    simp only [assigned, note, modifyScripted, log, hmodify]
  · split
    · rfl
    · rw [assigned_play]
      simp only [assigned, modifyBridge, log, hmodify]
  · rfl

/-! ### Every task heads for what was foreseen -/

/-- The task has ended as given, or it waits and will if its token is not cancelled. -/
inductive Heads (c : Clockwork) (token : Token) (task : Nat) (course : Course) : Prop where
  | ended (e : Ended) (he : e ∈ c.ended) (hid : e.task = task) (h : e.call?.map (e.tick, ·) = course)
  | pausing (t : Task) (ht : t ∈ c.tasks) (hid : t.id = task) (htoken : t.token = token) (tick : Tick)
      (moves : List Move) (last : Finish) (hstate : t.state = .waiting (.atTick tick) moves last) (hle : c.now ≤ tick)
      (h : foresee last tick moves = course)
  | stuck (t : Task) (ht : t ∈ c.tasks) (hid : t.id = task) (htoken : t.token = token) (wake : Wake)
      (moves : List Move) (last : Finish) (hstate : t.state = .waiting wake moves last)
      (hwake : wake = .never ∨ wake = .onCancellation) (h : course = none)

theorem finish_heads (last : Finish) (h : c.isCancelled t.token = false) :
    (c.finish t last).Heads t.token t.id (foresee last c.now []) := by
  have hrecord (c' : Clockwork) (hnow : c'.now = c.now) {o : Except Fault Yield}
      (ho : Ended.call? ⟨t.id, c.now, o⟩ = last.ending? c.now) :
      (c'.record t.id o).Heads t.token t.id (foresee last c.now []) := by
    refine .ended ⟨t.id, c.now, o⟩ ?_ rfl (by rw [ho]; rfl)
    rw [← hnow]
    exact List.mem_append_right _ (List.mem_singleton.mpr rfl)
  cases last with
  | provider index reply =>
    rcases reply with f | f | r
    all_goals
      refine hrecord _ ?_ ?_ <;> rfl
  | model index name written since reply =>
    refine hrecord _ rfl ?_
    rw [h]
    simp only [Finish.ending?]
    rcases Bridge.finish name written false (c.now - since) reply with f | r <;> rfl
  | prepare index reply =>
    rcases reply with f | u
    all_goals
      refine hrecord _ ?_ ?_ <;> rfl
  | resolve reply =>
    rcases reply with f | r
    all_goals
      refine hrecord _ ?_ ?_ <;> rfl
  | nothing => exact hrecord c rfl rfl

/-- A task that plays its moves heads for what they foresee, unless its token is cancelled meanwhile. -/
theorem play_heads (last : Finish) (moves : List Move) (h : (c.play t last moves).isCancelled t.token = false) :
    (c.play t last moves).Heads t.token t.id (foresee last c.now moves) := by
  have hbefore := not_cancelled_before (turn_play last moves).cancelled h
  induction moves generalizing c last with
  | nil => exact finish_heads last hbefore
  | cons move rest ih =>
    have hsuspend (wake : Wake) :
        ({ t with state := .waiting wake rest last } : Task) ∈ (c.suspend t wake rest last).tasks :=
      List.mem_append_right _ (List.mem_singleton.mpr rfl)
    cases move with
    | pause ticks =>
      exact .pausing _ (hsuspend _) rfl rfl (c.now + ticks) rest last rfl (Nat.le_add_right _ _) rfl
    | park => exact .stuck _ (hsuspend _) rfl rfl .never rest last rfl (.inl rfl) rfl
    | awaitCancellation =>
      simp only [play, hbefore]
      exact .stuck _ (hsuspend _) rfl rfl .onCancellation rest last rfl (.inr rfl) rfl
    | cancel source =>
      have hnow : (c.cancel source).now = c.now := by rw [cancel_eq]
      have hih := ih last h (not_cancelled_before (turn_play last rest).cancelled h)
      rw [hnow] at hih
      exact hih
    | checkpoint operation =>
      have hcheck : t.token.check c.cancelledSources operation = .ok () := by
        unfold Token.check
        rw [if_neg]
        have hno : t.token.isCancelled c.cancelledSources = false := hbefore
        simp [hno]
      simp only [play, hcheck] at h ⊢
      exact ih last h hbefore

/-- What the moves of a call foresee is what its provider's script assigns to it. -/
theorem foresee_scripted (p : ScriptedProvider) (index : Nat) (now : Tick) :
    let reply := p.script.reply p.record.calls
    foresee (.provider index (reply.outcome.map fun build => build kind)) now reply.moves =
      (Provider.scripted p).assigned kind payload context now := by
  simp only [foresee_moves, Provider.assigned, Reply.course, Finish.ending?, Option.map_some]
  cases (p.script.reply p.record.calls).outcome <;> rfl

theorem foresee_bridge {b : ModelBridge} {messages : List (String × String)}
    (hb : b.request false payload.message context = .ok messages) (index : Nat) (now : Tick) :
    let reply := (b.script.reply b.asked).withoutToken
    foresee (.model index b.name b.written now reply.outcome) now reply.moves =
      (Provider.bridge b).assigned kind payload context now := by
  simp only [foresee_moves, Provider.assigned, hb, Reply.course, Finish.ending?, Option.map_some, Reply.withoutToken,
    Option.isSome_map, Nat.add_sub_cancel_left]

/-- A call that begins heads for what is assigned to it. -/
theorem begin_heads {index : Nat}
    (h : (c.begin t (.call index kind payload context)).isCancelled t.token = false) :
    (c.begin t (.call index kind payload context)).Heads t.token t.id
      (c.assigned kind payload context index) := by
  have hbefore := not_cancelled_before (turn_begin _).cancelled h
  have hrecord (f : Fault) : (c.record t.id (.error f)).Heads t.token t.id (some (c.now, .error f)) :=
    .ended ⟨t.id, c.now, .error f⟩ (List.mem_append_right _ (List.mem_singleton.mpr rfl)) rfl rfl
  unfold assigned
  simp only [begin] at h ⊢
  cases hp : c.providers[index]? with
  | none => exact hrecord _
  | some p =>
    cases p with
    | scripted p =>
      simp only [hp] at h ⊢
      rw [← foresee_scripted p index c.now]
      exact play_heads _ _ h
    | bridge b =>
      simp only [hp, hbefore] at h ⊢
      cases hb : b.request false payload.message context with
      | error f =>
        simp only [hb, Provider.assigned]
        exact hrecord _
      | ok messages =>
        simp only [hb] at h ⊢
        rw [← foresee_bridge hb index c.now]
        exact play_heads _ _ h

/-! ### All calls of a fan-out -/

/-- The call is still to begin, and this will be assigned to it. -/
structure Unbegun (c : Clockwork) (token : Token) (kind : Capability) (payload : Payload) (context : Context)
    (call : ProviderRef × Nat) (course : Course) : Prop where
  task : ∃ t ∈ c.tasks, t.id = call.2 ∧ t.token = token ∧ t.state = .fresh (.call call.1.index kind payload context)
  assigned : c.assigned kind payload context call.1.index = course

/-- No other tasks are to begin, and as long as the token is not cancelled all calls head for what is assigned to them. -/
structure Foreseen (c : Clockwork) (token : Token) (kind : Capability) (payload : Payload) (context : Context)
    (calls : FanOut.Calls) (course : ProviderRef × Nat → Course) : Prop where
  fresh : ∀ t ∈ c.tasks, ∀ start, t.state = .fresh start →
    ∃ call ∈ calls, t.id = call.2 ∧ start = .call call.1.index kind payload context
  heads : c.isCancelled token = false → ∀ call ∈ calls,
    c.Heads token call.2 (course call) ∨ c.Unbegun token kind payload context call (course call)

theorem task_unique (hn : c.Numbered) {t' : Task} (ht : t ∈ c.tasks) (ht' : t' ∈ c.tasks) (hid : t.id = t'.id) :
    t = t' :=
  List.inj_on_of_nodup_map hn.tasks_nodup ht ht' hid

/-- The turn of a task leaves the other tasks waiting. -/
theorem Turn.mem_tasks {t' : Task} {size : Nat} (turn : Turn t size (c.without t) c') (ht' : t' ∈ c.tasks)
    (hid : t'.id ≠ t.id) : t' ∈ c'.tasks := by
  have hmem : t' ∈ (c.without t).tasks := List.mem_filter.mpr ⟨ht', by simpa using hid⟩
  obtain ⟨o, htasks, -⟩ | ⟨wake, moves, last, -, htasks, -⟩ := turn.went
  · rw [htasks]; exact hmem
  · rw [htasks]; exact List.mem_append_left _ hmem

theorem Turn.mem_ended {e : Ended} {size : Nat} (turn : Turn t size (c.without t) c') (he : e ∈ c.ended) :
    e ∈ c'.ended := by
  obtain ⟨o, -, hended⟩ | ⟨wake, moves, last, -, -, hended⟩ := turn.went
  · rw [hended]; exact List.mem_append_left _ he
  · rw [hended]; exact he

/-- While others have their turn a task heads for the same. -/
theorem Heads.turn {size : Nat} (h : c.Heads token task course) (turn : Turn t size (c.without t) c')
    (hid : task ≠ t.id) : c'.Heads token task course := by
  have hnow : c'.now = c.now := turn.now
  cases h with
  | ended e he heid h => exact .ended e (turn.mem_ended he) heid h
  | pausing t' ht' htid htoken tick moves last hstate hle h =>
    exact .pausing t' (turn.mem_tasks ht' (htid ▸ hid)) htid htoken tick moves last hstate (hnow ▸ hle) h
  | stuck t' ht' htid htoken wake moves last hstate hwake h =>
    exact .stuck t' (turn.mem_tasks ht' (htid ▸ hid)) htid htoken wake moves last hstate hwake h

/-- When its own turn has come a task still heads for the same, unless its token is cancelled. -/
theorem Heads.goOn (h : c.Heads token t.id course) (hn : c.Numbered) (ht : t ∈ c.tasks) (hready : c.isReady t = true)
    (hc : (c.goOn t).isCancelled token = false) : (c.goOn t).Heads token t.id course := by
  have hbefore : c.isCancelled token = false := not_cancelled_before (turn_goOn t).cancelled hc
  cases h with
  | ended e he heid h =>
    exact absurd heid.symm (hn.not_ended ht he)
  | pausing t' ht' htid htoken tick moves last hstate hle h =>
    obtain rfl : t' = t := task_unique hn ht' ht htid
    have hnow : tick = c.now := by
      rw [isReady, hstate] at hready
      exact Nat.le_antisymm (of_decide_eq_true hready) hle
    unfold Clockwork.goOn at hc ⊢
    rw [hstate] at hc ⊢
    subst htoken hnow h
    exact play_heads last moves hc
  | stuck t' ht' htid htoken wake moves last hstate hwake h =>
    obtain rfl : t' = t := task_unique hn ht' ht htid
    rw [isReady, hstate] at hready
    rcases hwake with rfl | rfl
    · cases hready
    · rw [htoken, hbefore] at hready
      cases hready

/-- A turn leaves no task to begin that was not to begin before. -/
theorem Turn.fresh {t' : Task} {size : Nat} {start : Start} (turn : Turn t size (c.without t) c') (ht' : t' ∈ c'.tasks)
    (hstate : t'.state = .fresh start) : t' ∈ c.tasks := by
  obtain ⟨o, htasks, -⟩ | ⟨wake, moves, last, -, htasks, -⟩ := turn.went
  · rw [htasks] at ht'
    exact List.mem_of_mem_filter ht'
  · rw [htasks] at ht'
    rcases List.mem_append.mp ht' with ht' | ht'
    · exact List.mem_of_mem_filter ht'
    · rw [List.mem_singleton.mp ht'] at hstate
      cases hstate

variable {calls : FanOut.Calls} {courseOf : ProviderRef × Nat → Course}

/-- **Whoever has its turn, all calls head for the same.** -/
theorem Foreseen.step (h : c.Foreseen token kind payload context calls courseOf) (hn : c.Numbered)
    (hindices : (calls.map (·.1.index)).Nodup) (hstep : c.step = some c') :
    c'.Foreseen token kind payload context calls courseOf := by
  obtain ⟨t, hfind, rfl⟩ := step_eq_some.mp hstep
  have ht := List.mem_of_find?_eq_some hfind
  have hready := List.find?_some hfind
  have turn := turn_goOn (c := c) t
  refine ⟨fun t' ht' start hstate => h.fresh t' (turn.fresh ht' hstate) start hstate, fun hc call hcall => ?_⟩
  have hbefore : c.isCancelled token = false := not_cancelled_before turn.cancelled hc
  rcases h.heads hbefore call hcall with hheads | ⟨⟨t', ht', hid, htoken, hstate⟩, hassigned⟩
  · by_cases hid : call.2 = t.id
    · rw [hid] at hheads ⊢
      exact .inl (hheads.goOn hn ht hready hc)
    · exact .inl (hheads.turn turn hid)
  · by_cases hid' : t'.id = t.id
    · -- the call begins
      obtain rfl : t' = t := task_unique hn ht' ht hid'
      refine .inl ?_
      unfold goOn at hc ⊢
      rw [hstate] at hc ⊢
      subst htoken
      rw [← hid, ← hassigned]
      exact begin_heads hc
    · refine .inr ⟨⟨t', turn.mem_tasks ht' hid', hid, htoken, hstate⟩, ?_⟩
      rw [← hassigned]
      unfold goOn
      cases htstate : t.state with
      | waiting wake moves last => exact assigned_play last moves _
      | fresh start =>
        obtain ⟨other, hother, hotherid, rfl⟩ := h.fresh t ht start htstate
        refine assigned_begin fun hindex => hid' ?_
        -- a provider has one call only
        rw [hid, hotherid, List.inj_on_of_nodup_map hindices hother hcall hindex]

/-- Once settled, what is known of the calls is what was assigned to them, up to now. -/
theorem Foreseen.course_eq (h : c.Foreseen token kind payload context calls courseOf) (hn : c.Numbered) (ht : c.Timely)
    (hs : c.step = none) (hc : c.isCancelled token = false) {call : ProviderRef × Nat} (hcall : call ∈ calls) :
    c.course call.2 = (courseOf call).upTo c.now := by
  have hready := step_eq_none.mp hs
  have hwaits {t : Task} (ht : t ∈ c.tasks) (hid : t.id = call.2) : c.course call.2 = none := by
    unfold course
    rw [List.find?_eq_none.mpr]
    · rfl
    · intro e he heid
      exact hn.not_ended ht he (hid.trans (by simpa using heid : e.task = call.2).symm)
  rcases h.heads hc call hcall with (⟨e, he, hid, hcourse⟩ | ⟨t, hmem, hid, -, tick, moves, last, hstate, -, hcourse⟩ |
    ⟨t, hmem, hid, -, wake, moves, last, hstate, hwake, hcourse⟩) | ⟨⟨t, hmem, hid, -, hstate⟩, -⟩
  · rw [← hcourse]
    refine Option.ext fun ⟨tick, y⟩ => ?_
    rw [Course.upTo_eq_some, course_eq_some hn, Option.map_eq_some_iff]
    constructor
    · rintro ⟨e', he', hid', rfl, hy⟩
      obtain rfl : e' = e := List.inj_on_of_nodup_map hn.ended_nodup he' he (hid'.trans hid.symm)
      exact ⟨⟨y, hy, rfl⟩, ht.ended e' he'⟩
    · rintro ⟨⟨y', hy', hpair⟩, -⟩
      obtain ⟨rfl, rfl⟩ := Prod.mk.inj hpair
      exact ⟨e, he, hid, rfl, hy'⟩
  · have hlt : c.now < tick := by
      have hno := hready t hmem
      rw [isReady, hstate] at hno
      exact Nat.lt_of_not_le (of_decide_eq_false hno)
    rw [hwaits hmem hid, eq_comm, Course.upTo, Option.filter_eq_none_iff]
    intro x hx
    have hle := le_foresee (hcourse.trans hx)
    simpa using Nat.lt_of_lt_of_le hlt hle
  · rw [hwaits hmem hid, hcourse]
    rfl
  · have hno := hready t hmem
    rw [isReady, hstate] at hno
    cases hno

/-- A call that is still to end waits for a tick no later than that. -/
theorem Foreseen.exists_waiting (h : c.Foreseen token kind payload context calls courseOf) (ht : c.Timely)
    (hs : c.step = none) (hc : c.isCancelled token = false) {call : ProviderRef × Nat} (hcall : call ∈ calls)
    {x : Tick × Ending} (hx : courseOf call = some x) (hlt : c.now < x.1) :
    ∃ t ∈ c.tasks, ∃ tick moves last, t.state = .waiting (.atTick tick) moves last ∧ tick ≤ x.1 := by
  rcases h.heads hc call hcall with (⟨e, he, hid, hcourse⟩ | ⟨t, hmem, hid, -, tick, moves, last, hstate, -, hcourse⟩ |
    ⟨t, hmem, hid, -, wake, moves, last, hstate, hwake, hcourse⟩) | ⟨⟨t, hmem, hid, -, hstate⟩, -⟩
  · obtain ⟨y, -, rfl⟩ := Option.map_eq_some_iff.mp (hcourse.trans hx)
    exact absurd (ht.ended e he) (Nat.not_le_of_lt hlt)
  · exact ⟨t, hmem, tick, moves, last, hstate, le_foresee (hcourse.trans hx)⟩
  · rw [hcourse] at hx
    cases hx
  · have hno := step_eq_none.mp hs t hmem
    rw [isReady, hstate] at hno
    cases hno

end Clockwork

end Orchestra
