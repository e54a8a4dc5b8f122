import Orchestra.Proofs.Dispatch.Invocation
import Orchestra.Proofs.Events.Silence
import Orchestra.Proofs.Runs.Following

/-!
# Orchestra.Proofs.Dispatch.Asking — a bridge asks its model once, or not at all

A bridge that is called looks once at its token and at itself, words the context, and asks its model only if nothing stands
in the way.  From then on it follows the model's reply, whoever cancels or disposes of what meanwhile, and looks at its
token again when the reply has come (`Asking`).
-/

namespace Orchestra

namespace Clockwork

variable {c c' : Clockwork} {t : Task} {task : Nat}

/-- What the next turn adds to the journal, if it is the turn of that task. -/
def shown? (task : Nat) (c : Clockwork) : Option (List Entry) :=
  (c.tasks.find? c.isReady).bind fun t =>
    if t.id == task then some ((c.goOn t).journal.take ((c.goOn t).journal.length - c.journal.length)).reverse else none

theorem shown?_of_turn {es : List Entry} (hfind : c.tasks.find? c.isReady = some t)
    (hjournal : (c.goOn t).journal = es ++ c.journal) : c.shown? t.id = some es.reverse := by
  rw [shown?, hfind, Option.bind_some, if_pos (beq_self_eq_true _), hjournal, List.length_append, Nat.add_sub_cancel,
    List.take_left]

theorem shown?_of_other (h : ∀ t, c.tasks.find? c.isReady = some t → t.id ≠ task) : c.shown? task = none := by
  unfold shown?
  rw [Option.bind_eq_none_iff]
  intro t hfind
  rw [if_neg (by simpa using h t hfind)]

/-- A turn is the same from where the time and the ended tasks are the same. -/
theorem Steps.of_same {α : Type} {start : Tick} {r : Reply α} {last : Finish} {d : Clockwork}
    (h : Steps c c' t start r last) (hnow : c.now = d.now) (hended : c.ended = d.ended) : Steps d c' t start r last := by
  cases h with
  | ends due finite concludes => exact .ends (hnow ▸ due) finite (by rw [Concludes, ← hended, ← hnow]; exact concludes)
  | waits t' mem id same place => exact .waits t' mem id same place

/-- The clockwork in which a model has just been asked. -/
def asking (c : Clockwork) (index : Nat) (b : ModelBridge) (messages : List (String × String)) : Clockwork :=
  (c.modifyBridge index fun b => { b with asked := b.asked + 1 }).log (.complete b.key messages b.arguments)

variable {index : Nat} {kind : Capability} {message : String} {context : Context} {b : ModelBridge}

theorem begin_refused_bridge {f : Fault} (hp : c.providers[index]? = some (.bridge b))
    (hr : b.request (c.isCancelled t.token) message context = .error f) :
    c.begin t (.call index kind (.text message) context) = c.record t.id (.error f) := by
  simp only [begin, hp, Payload.message, hr]

theorem begin_asking {messages : List (String × String)} (hp : c.providers[index]? = some (.bridge b))
    (hr : b.request (c.isCancelled t.token) message context = .ok messages) :
    c.begin t (.call index kind (.text message) context) =
      (c.asking index b messages).play t (.model index b.name b.written c.now (b.script.reply b.asked).outcome)
        (b.script.reply b.asked).withoutToken.moves := by
  simp only [begin, hp, Payload.message, hr]
  rfl

end Clockwork

namespace World

variable {v w : World} {b : Brief} {ps : List ProviderRef} {xs : List Happening} {x : Happening} {call : Call}
  {message : String} {task : Nat} {t : Task}

/-! ### What a task shows -/

/-- The entries that a task adds to the journal in its turns, in order. -/
def shown (v : World) (task : Nat) (xs : List Happening) : List Entry :=
  (v.inTurns (Clockwork.shown? task) xs).flatten

theorem shown_concat (v : World) (task : Nat) (xs : List Happening) (x : Happening) :
    v.shown task (xs ++ [x]) = v.shown task xs ++ ((v.unfold xs).showing (Clockwork.shown? task) x).getD [] := by
  rw [shown, inTurns_concat, List.flatten_append]
  congr 1
  cases (v.unfold xs).showing (Clockwork.shown? task) x with
  | none => rfl
  | some es => exact List.append_nil es

theorem shown_turn (es : List Entry) (hfind : (v.unfold xs).clock.tasks.find? (v.unfold xs).clock.isReady = some t)
    (hjournal : ((v.unfold xs).clock.goOn t).journal = es ++ (v.unfold xs).clock.journal) :
    v.shown t.id (xs ++ [.turn]) = v.shown t.id xs ++ es.reverse := by
  rw [shown_concat]
  show _ ++ ((v.unfold xs).clock.shown? t.id).getD [] = _
  rw [Clockwork.shown?_of_turn hfind hjournal, Option.getD_some]

/-- The next happening is not the turn of the task. -/
def Elsewhere (w : World) (task : Nat) (x : Happening) : Prop :=
  x = .turn → ∀ t, w.clock.tasks.find? w.clock.isReady = some t → t.id ≠ task

theorem shown_elsewhere (h : (v.unfold xs).Elsewhere task x) : v.shown task (xs ++ [x]) = v.shown task xs := by
  rw [shown_concat, showing_eq_none fun hx => Clockwork.shown?_of_other (h hx)]
  exact List.append_nil _

/-- A task that has begun to follow a reply shows nothing any more. -/
theorem Pursues.journal {α : Type} {token : Token} {start : Tick} {r : Reply α} {last : Finish}
    (h : Pursues v xs t.id token start r last) (hv : (v.unfold xs).Sound) (hmem : t ∈ (v.unfold xs).clock.tasks) :
    ((v.unfold xs).clock.goOn t).journal = (v.unfold xs).clock.journal := by
  cases h with
  | ended mid rest split _ _ _ mem => exact absurd rfl (hv.numbered.not_ended hmem (split ▸ mem_ended_later mem rest))
  | underway t' mem id _ place =>
    obtain rfl := Clockwork.task_unique hv.numbered mem hmem id
    rw [Clockwork.goOn]
    generalize t'.state = state at place
    cases place with
    | pausing _ _ | parked _ | awaiting _ _ _ => exact Clockwork.play_journal _ _ _ _

/-! ### What becomes of a call -/

/-- The call was made in the turn after `before`: it was refused at once, or the model was asked once and its reply is
followed. -/
def Asked (v : World) (xs : List Happening) (call : Call) (message : String) (before : List Happening)
    (b : ModelBridge) : Prop :=
  match b.request ((v.unfold before).isCancelled call.token) message call.context with
  | .error f => v.shown call.task xs = [] ∧ ⟨call.task, call.tick, .error f⟩ ∈ (v.unfold xs).clock.ended
  | .ok messages => v.shown call.task xs = [.complete b.key messages b.arguments] ∧
    Pursues v xs call.task call.token call.tick (b.script.reply b.asked).withoutToken
      (.model call.provider b.name b.written call.tick (b.script.reply b.asked).outcome)

/-- The call is still to be made at this tick and has shown nothing, or it was made and its bridge, if it is one, asked. -/
inductive Asking (v : World) (xs : List Happening) (call : Call) (message : String) : Prop
  | ahead (t : Task) (mem : t ∈ (v.unfold xs).clock.tasks) (calls : Clockwork.call? call.tick t = some call)
      (now : (v.unfold xs).now = call.tick) (quiet : v.shown call.task xs = [])
  | made (before : List Happening) (made : Made v xs call before)
      (asked : ∀ b, (v.unfold before).clock.providers[call.provider]? = some (.bridge b) →
        Asked v xs call message before b)

theorem made_now (hcalled : (v.unfold xs).clock.called? = some call) (hnow : (v.unfold xs).now = call.tick) :
    Made v (xs ++ [.turn]) call xs := by
  obtain ⟨t, -, hid, htoken, -, -, hbegins⟩ := Clockwork.step_of_called hcalled
  exact ⟨⟨[], rfl⟩, hcalled, hnow, t, hid, htoken, hbegins⟩

/-- The turn in which a model is asked. -/
theorem unfold_asking {index : Nat} {kind : Capability} {context : Context} {b : ModelBridge}
    {messages : List (String × String)} (hfind : w.clock.tasks.find? w.clock.isReady = some t)
    (hstate : t.state = .fresh (.call index kind (.text message) context))
    (hp : w.clock.providers[index]? = some (.bridge b))
    (hr : b.request (w.isCancelled t.token) message context = .ok messages) (xs : List Happening) :
    w.unfold (.turn :: xs) = World.unfold { w with
      clock := ((w.clock.without t).asking index b messages).play t
        (.model index b.name b.written w.now (b.script.reply b.asked).outcome)
        (b.script.reply b.asked).withoutToken.moves } xs := by
  have hgo : (w.clock.without t).begin t (.call index kind (.text message) context) = _ := Clockwork.begin_asking hp hr
  show (w.happen .turn).unfold xs = _
  rw [happen, Clockwork.step_eq_some.mpr ⟨t, hfind, rfl⟩, Option.getD_some, Clockwork.goOn, hstate]
  exact congrArg (fun c => World.unfold { w with clock := c } xs) hgo

/-- The turn in which the call is made. -/
theorem asked_now {b : ModelBridge} (hpayload : call.payload = .text message)
    (hfind : (v.unfold xs).clock.tasks.find? (v.unfold xs).clock.isReady = some t)
    (hcall : Clockwork.call? call.tick t = some call) (hnow : (v.unfold xs).now = call.tick)
    (quiet : v.shown call.task xs = []) (hp : (v.unfold xs).clock.providers[call.provider]? = some (.bridge b)) :
    Asked v (xs ++ [.turn]) call message xs b := by
  obtain ⟨hid, htoken, -, hstate⟩ := Clockwork.call?_eq_some hcall
  have hmem := List.mem_of_find?_eq_some hfind
  have hgo : (v.unfold xs).clock.goOn t = ((v.unfold xs).clock.without t).begin t
      (.call call.provider call.kind (.text message) call.context) := by rw [Clockwork.goOn, hstate, hpayload]
  have hclock : (v.unfold (xs ++ [.turn])).clock = (v.unfold xs).clock.goOn t := by
    rw [unfold_concat, happen, Clockwork.step_eq_some.mpr ⟨t, hfind, rfl⟩]
    rfl
  have hcancelled : (v.unfold xs).isCancelled call.token = ((v.unfold xs).clock.without t).isCancelled t.token := by
    rw [htoken]
    rfl
  have hp : ((v.unfold xs).clock.without t).providers[call.provider]? = some (.bridge b) := hp
  unfold Asked
  rw [hcancelled]
  cases hr : b.request (((v.unfold xs).clock.without t).isCancelled t.token) message call.context with
  | error f =>
    rw [Clockwork.begin_refused_bridge hp hr] at hgo
    refine ⟨?_, ?_⟩
    · rw [hid, shown_turn [] hfind (by rw [hgo]; rfl), ← hid, quiet]
      rfl
    · rw [hclock, hgo, hid, ← hnow]
      exact List.mem_append_right _ (List.mem_singleton.mpr rfl)
  | ok messages =>
    rw [Clockwork.begin_asking hp hr] at hgo
    refine ⟨?_, ?_⟩
    · rw [hid, shown_turn [_] hfind (by rw [hgo]; exact Clockwork.play_journal _ _ _ _), ← hid, quiet]
      rfl
    · rw [hid, htoken]
      refine pursues_of_steps hmem ?_
      rw [hclock, hgo, ← hnow]
      exact (Clockwork.steps_moves (Reply.heedless_withoutToken _)).of_same rfl rfl

/-- Where it is not its turn, the call stays as it is. -/
theorem Asked.elsewhere {before : List Happening} {b : ModelBridge} (h : Asked v xs call message before b)
    (hv : (v.unfold xs).Sound) (hspares : (v.unfold xs).Spares call.task) (hx : (v.unfold xs).Elsewhere call.task x) :
    Asked v (xs ++ [x]) call message before b := by
  unfold Asked at h ⊢
  rw [shown_elsewhere hx]
  split at h
  · obtain ⟨hquiet, hended⟩ := h
    obtain ⟨⟨more, hmore⟩, -⟩ := (happen_goes (v.unfold xs) x).grows
    rw [unfold_concat, hmore]
    exact ⟨hquiet, List.mem_append_left _ hended⟩
  · obtain ⟨hshown, hpursues⟩ := h
    exact ⟨hshown, hpursues.concat (Reply.heedless_withoutToken _) hv (hspares.tolerates x)⟩

/-- In its own turn, the call goes on silently. -/
theorem Asked.turn {before : List Happening} {b : ModelBridge} (h : Asked v xs call message before b)
    (hv : (v.unfold xs).Sound) (hspares : (v.unfold xs).Spares call.task)
    (hfind : (v.unfold xs).clock.tasks.find? (v.unfold xs).clock.isReady = some t) (hid : t.id = call.task) :
    Asked v (xs ++ [.turn]) call message before b := by
  have hmem := List.mem_of_find?_eq_some hfind
  unfold Asked at h ⊢
  rw [← hid] at h ⊢
  split at h
  · obtain ⟨-, hended⟩ := h
    exact absurd rfl (hv.numbered.not_ended hmem hended)
  · obtain ⟨hshown, hpursues⟩ := h
    refine ⟨?_, hpursues.concat (Reply.heedless_withoutToken _) hv ((hid ▸ hspares).tolerates _)⟩
    rw [shown_turn [] hfind (hpursues.journal hv hmem), hshown]
    rfl

/-- **Whatever happens next**, a call is made in its turn, and its bridge asks its model then or never. -/
theorem Asking.concat (h : Asking v xs call message) (hpayload : call.payload = .text message)
    (hv : (v.unfold xs).Sound) (hspares : (v.unfold xs).Spares call.task) (x : Happening) :
    Asking v (xs ++ [x]) call message := by
  by_cases hx : (v.unfold xs).Elsewhere call.task x
  · cases h with
    | made before made asked => exact .made before (made.concat x) fun b hb => (asked b hb).elsewhere hv hspares hx
    | ahead t mem calls now quiet =>
      have hid := (Clockwork.call?_eq_some calls).1
      have hgoes := happen_goes (v.unfold xs) x
      rw [← unfold_concat] at hgoes
      have hkept : t ∈ (v.unfold (xs ++ [x])).clock.tasks := by
        obtain hkept | ⟨rfl, hfind, -⟩ := hgoes.keeps hv ((hid ▸ hspares).tolerates x) mem
        · exact hkept
        · exact absurd hid.symm (hx rfl t hfind)
      refine .ahead t hkept calls ?_ ((shown_elsewhere hx).trans quiet)
      generalize v.unfold (xs ++ [x]) = u at hgoes
      cases hgoes with
      | works stopped works _ _ => exact works.clock.now.trans now
      | turn step => exact (Clockwork.within_step step).now.trans now
      | pass step _ _ _ =>
        rw [Clockwork.call?_of_not_ready (Clockwork.step_eq_none.mp step t mem)] at calls
        cases calls
  · obtain ⟨rfl, t, hfind, hid⟩ : x = .turn ∧ ∃ t,
        (v.unfold xs).clock.tasks.find? (v.unfold xs).clock.isReady = some t ∧ t.id = call.task := by
      simpa [Elsewhere] using hx
    cases h with
    | made before made asked => exact .made before (made.concat _) fun b hb => (asked b hb).turn hv hspares hfind hid
    | ahead t' mem calls now quiet =>
      obtain rfl := Clockwork.task_unique hv.numbered (List.mem_of_find?_eq_some hfind) mem
        (hid.trans (Clockwork.call?_eq_some calls).1)
      have hcalled : (v.unfold xs).clock.called? = some call := by
        rw [Clockwork.called?, hfind, Option.bind_some, ← calls, ← now]
        rfl
      exact .made xs (made_now hcalled now) fun b hb => asked_now hpayload hfind calls now quiet hb

theorem Started.asking (h : Started w v b ps) (xs : List Happening)
    (hcall : call ∈ b.calls w.clock.nextTask w.now ps) (hpayload : b.payload = .text message) :
    Asking v xs call message := by
  have hinvoked := h.invoked [] hcall
  have htask : call.task ∈ w.tasksFor ps ∧ call.payload = b.payload := by
    obtain ⟨y, hy, rfl⟩ := List.mem_map.mp hcall
    refine ⟨?_, rfl⟩
    unfold tasksFor
    rw [← List.zipIdx_map_snd]
    exact List.mem_map_of_mem hy
  induction xs using List.reverseRecOn with
  | nil =>
    cases hinvoked with
    | ahead t mem calls now _ => exact .ahead t mem calls now rfl
    | made before made _ _ =>
      obtain ⟨after, hsplit⟩ := made.split
      cases before <;> cases hsplit
  | append_singleton xs x ih =>
    exact ih.concat (htask.2.trans hpayload) (h.after.unfold xs) ((h.spares htask.1).unfold xs) x

/-! ### What the caller of a bridge gets -/

/-- What has come of the call of a bridge that was made in the turn after `before`. -/
structure Consulted (v : World) (xs : List Happening) (call : Call) (message : String) (before : List Happening)
    (b : ModelBridge) : Prop where
  /-- A cancelled token is reported, and the model is not asked. -/
  cancelled : (v.unfold before).isCancelled call.token = true → v.shown call.task xs = [] ∧
    (v.unfold xs).clock.course call.task =
      some (call.tick, .error (.cancelled (some ("amplifier:" ++ b.name ++ ":chat")) none))
  /-- Otherwise that the bridge is disposed of is, and the model is not asked. -/
  disposed : (v.unfold before).isCancelled call.token = false → b.disposed = true → v.shown call.task xs = [] ∧
    (v.unfold xs).clock.course call.task = some (call.tick, .error (.bridgeDisposed b.name))
  /-- Otherwise the model is not asked either if something in the context cannot be written, which the call fails with. -/
  unwritten : (v.unfold before).isCancelled call.token = false → b.disposed = false →
    (∃ x ∈ call.context.writes, ∀ s, b.written x ≠ .ok s) → v.shown call.task xs = [] ∧
    ∃ x ∈ call.context.writes, ∃ f, b.written x = .error f ∧
      (v.unfold xs).clock.course call.task = some (call.tick, .error f)
  /-- Nor if it cannot take its arguments. -/
  unaccepted : (v.unfold before).isCancelled call.token = false → b.disposed = false →
    (∀ x ∈ call.context.writes, ∃ s, b.written x = .ok s) → ∀ f, b.accepts b.arguments = .error f →
    v.shown call.task xs = [] ∧ (v.unfold xs).clock.course call.task = some (call.tick, .error f)
  /-- Otherwise the model is asked, once, with the words of the context in the system prompt if there are any. -/
  asked : b.CanAsk ((v.unfold before).isCancelled call.token) call.context →
    ∃ lines, List.Forall₂ (Says b.written) call.context.worded lines ∧
      let words := "\n".intercalate lines.flatten
      v.shown call.task xs =
        [.complete b.key [("system", if words = "" then b.system else b.system ++ "\n\nContext:\n" ++ words),
          ("user", message)] b.arguments]
  /-- The call ends in the turn in which the reply has come.  A failure of the model is passed on; a reply counts only if
  the token is not cancelled then. -/
  answered : b.CanAsk ((v.unfold before).isCancelled call.token) call.context → ∀ tick ending,
    (v.unfold xs).clock.course call.task = some (tick, ending) →
    (b.script.reply b.asked).wait = none ∧ tick = call.tick + (b.script.reply b.asked).delay ∧
    ∃ mid rest, xs = mid ++ .turn :: rest ∧ (v.unfold mid).now = tick ∧
      (v.unfold mid).clock.course call.task = none ∧
      (v.unfold (mid ++ [.turn])).clock.course call.task = some (tick, ending) ∧
      b.Replied ((v.unfold (mid ++ [.turn])).isCancelled call.token) (tick - call.tick)
        (b.script.reply b.asked).outcome ending
  /-- Where no task can run, the call has ended exactly if the reply has come. -/
  elapsed : b.CanAsk ((v.unfold before).isCancelled call.token) call.context → (v.unfold xs).clock.step = none →
    (((v.unfold xs).clock.course call.task).isSome ↔
      (b.script.reply b.asked).wait = none ∧ call.tick + (b.script.reply b.asked).delay ≤ (v.unfold xs).now)

theorem call?_of_model {e : Ended} {index ticks start : Nat} {name : String} {written : Writing} {cancelled : Bool}
    {reply : Except Fault (Option ModelReply)}
    (h : e.outcome = (Finish.model index name written start reply).outcome cancelled ticks) :
    e.call? = some ((Bridge.finish name written cancelled (ticks - start) reply).map .chat) := by
  rw [Finish.outcome] at h
  rw [Ended.call?, h]
  cases Bridge.finish name written cancelled (ticks - start) reply <;> rfl

theorem Asked.consulted {before : List Happening} {b : ModelBridge} (h : Asked v xs call message before b)
    (hv : v.Sound) : Consulted v xs call message before b := by
  have hsound := hv.unfold xs
  have hcourse {e : Ended} {y : Ending} {ys : List Happening} (he : e ∈ (v.unfold ys).clock.ended)
      (hid : e.task = call.task) (hcall : e.call? = some y) :
      (v.unfold ys).clock.course call.task = some (e.tick, y) :=
    (Clockwork.course_eq_some (hv.unfold ys).numbered).mpr ⟨e, he, hid, rfl, hcall⟩
  unfold Asked at h
  -- the model is asked, and its reply is followed
  have hasks (hcan : b.CanAsk ((v.unfold before).isCancelled call.token) call.context) :
      ∃ messages, chatMessages b.written message call.context b.system = .ok messages ∧
        v.shown call.task xs = [.complete b.key messages b.arguments] ∧
        Pursues v xs call.task call.token call.tick (b.script.reply b.asked).withoutToken
          (.model call.provider b.name b.written call.tick (b.script.reply b.asked).outcome) := by
    obtain ⟨messages, hmessages, hrequest⟩ := hcan.request message
    rw [hrequest] at h
    exact ⟨messages, hmessages, h⟩
  -- the call fails before the model is asked
  have hfails {f : Fault}
      (hrequest : b.request ((v.unfold before).isCancelled call.token) message call.context = .error f) :
      v.shown call.task xs = [] ∧ (v.unfold xs).clock.course call.task = some (call.tick, .error f) := by
    rw [hrequest] at h
    exact ⟨h.1, hcourse h.2 rfl rfl⟩
  exact {
    cancelled := fun hc => hfails (by rw [hc]; exact ModelBridge.request_cancelled b message call.context)
    disposed := fun hc hd => hfails (by rw [hc]; exact ModelBridge.request_disposed message call.context hd)
    unwritten := fun hc hd hunwritten => by
      obtain ⟨x, hx, f, hf, hrequest⟩ := ModelBridge.request_unwritten message hd hunwritten
      obtain ⟨hshown, hended⟩ := hfails (by rw [hc]; exact hrequest)
      exact ⟨hshown, x, hx, f, hf, hended⟩
    unaccepted := fun hc hd hwritten f hf =>
      hfails (by rw [hc]; exact ModelBridge.request_unaccepted message hd hwritten hf)
    asked := fun hcan => by
      obtain ⟨messages, hmessages, hshown, -⟩ := hasks hcan
      obtain ⟨lines, hworded, rfl⟩ := chatMessages_worded hmessages
      exact ⟨lines, hworded, hshown⟩
    answered := fun hcan tick ending hending => by
      obtain ⟨-, -, -, hpursues⟩ := hasks hcan
      obtain ⟨e, he, hid, htick, hcall⟩ := (Clockwork.course_eq_some hsound.numbered).mp hending
      obtain ⟨hwait, hdelay, mid, rest, hsplit, hnow, ⟨t, hmem, htask⟩, hmid, houtcome⟩ := hpursues.ended_eq hsound he hid
      have hgoing : (v.unfold mid).clock.course call.task = none := by
        rw [Option.eq_none_iff_forall_ne_some]
        rintro ⟨tick', ending'⟩ hearly
        obtain ⟨e', he', hid', -⟩ := (Clockwork.course_eq_some (hv.unfold mid).numbered).mp hearly
        exact (hv.unfold mid).numbered.not_ended hmem he' (htask.trans hid'.symm)
      have hticks : tick = call.tick + (b.script.reply b.asked).delay := htick.symm.trans hdelay
      refine ⟨(Option.map_eq_none_iff.mp hwait), hticks, mid, rest, hsplit, hnow.trans hticks.symm, hgoing,
        htick ▸ hcourse hmid hid hcall, ?_⟩
      rw [call?_of_model houtcome] at hcall
      rw [← Option.some.inj hcall, hticks]
      exact b.finish_replied _ _ _
    elapsed := fun hcan hstep => by
      obtain ⟨-, -, -, hpursues⟩ := hasks hcan
      have hwaits : (b.script.reply b.asked).withoutToken.wait = none ↔ (b.script.reply b.asked).wait = none :=
        Option.map_eq_none_iff
      refine Iff.trans ?_ ((hpursues.ended_iff hsound hstep).trans (and_congr_left fun _ => hwaits))
      constructor
      · intro hsome
        obtain ⟨⟨tick, ending⟩, hending⟩ := Option.isSome_iff_exists.mp hsome
        obtain ⟨e, he, hid, -⟩ := (Clockwork.course_eq_some hsound.numbered).mp hending
        exact ⟨e, he, hid⟩
      · rintro ⟨e, he, hid⟩
        obtain ⟨-, -, mid, -, -, -, -, -, houtcome⟩ := hpursues.ended_eq hsound he hid
        exact Option.isSome_iff_exists.mpr ⟨_, hcourse he hid (call?_of_model houtcome)⟩ }

/-- **A bridge that is called asks its model once, or not at all.**  Whatever service this is, and whatever happens before
and after: a call that a fan-out makes of a bridge is still to be made and has shown nothing, or it was made, and asks the
model exactly if it finds its token not cancelled, which is reported first, and the bridge not disposed of. -/
theorem occur_consults {x : Occurrence} (ha : w.Arises) (hb : w.starts x = some b) (hi : w.invites b = .ok ps)
    (hp : b.payload = .text message) (hcall : call ∈ b.calls w.clock.nextTask w.now ps) (xs : List Happening) :
    ((∃ t ∈ ((w.occur x).unfold xs).clock.tasks, t.id = call.task ∧
        t.state = .fresh (.call call.provider call.kind call.payload call.context)) ∧
      ((w.occur x).unfold xs).clock.step ≠ none ∧ (w.occur x).shown call.task xs = []) ∨
    ∃ before, Made (w.occur x) xs call before ∧
      ∀ b, ((w.occur x).unfold before).clock.providers[call.provider]? = some (.bridge b) →
        Consulted (w.occur x) xs call message before b := by
  have started : Started w (w.occur x) b ps := ⟨ha.sound, ⟨x, hb, rfl⟩, hi⟩
  cases started.asking xs hcall hp with
  | ahead t mem calls now quiet =>
    obtain ⟨hid, -, -, hstate⟩ := Clockwork.call?_eq_some calls
    refine .inl ⟨⟨t, mem, hid.symm, hstate⟩, fun hstep => ?_, quiet⟩
    rw [Clockwork.call?_of_not_ready (Clockwork.step_eq_none.mp hstep t mem)] at calls
    cases calls
  | made before made asked => exact .inr ⟨before, made, fun b hb => (asked b hb).consulted started.after⟩

/-- A model that takes its time. -/
def gpt : ModelBridge where
  key := "gpt"
  name := "gpt"
  script := ⟨{
    delay := 2
    outcome := .ok (some {
      content := [{ text := .text "Hello." }]
      usage := some { input := .number (.int 40) }
      finishReason := some "end" }) }, []⟩
  system := "Be brief."
  arguments := []

/-- What its reply comes to. -/
theorem finish_gpt : Bridge.finish "gpt" Value.inSentence false 2 (gpt.script.reply 0).outcome = .ok {
    message := some "Hello."
    metadata := some [("provider", .text "gpt"),
      ("usage", .object [("input", .number (.int 40)), ("output", .number (.int 0))]),
      ("finish_reason", .text "end"), ("duration_ms", .number (.int 31))] } := by
  have hblocks : Markdown.blocks "Hello." = [] := List.length_eq_zero_iff.mp (by decide +kernel)
  have hfinish : Bridge.finish "gpt" Value.inSentence false 2 (gpt.script.reply 0).outcome = .ok {
      message := some "Hello."
      codeBlocks := Markdown.blocks "Hello."
      metadata := some [("provider", .text "gpt"),
        ("usage", .object [("input", .number (.int 40)), ("output", .number (.int 0))]),
        ("finish_reason", .text "end"), ("duration_ms", .number (.int 31))] } := rfl
  rw [hfinish, hblocks]

def bridged (b : ModelBridge) : Scenario.Service.Setting where
  config := []
  coordinator := none
  providers := [.bridge b]
  cancelled := []
  resolver := none
  beforehand := []
  mounts := false
  steps := []
  suffix := fun _ _ => "0"

/-- A service with one bridge and a context of its own. -/
def prepared (changes : Changes) : List Happening := [
  .occurs (.register ⟨0, "amplifier:gpt", [.chat]⟩ none),
  .occurs (.setContext .nothing changes)]

/-- Somebody says hello, and can change his mind. -/
def hello : Occurrence := .begin (.service "get_chat_response" .chat (.text "hello") none) (.source "stop")

/-- The token is cancelled and the bridge disposed of while the model is at work; the caller does not wait for it. -/
def outpaced : List Happening := [
  .turn,
  .occurs (.deed (.cancel "stop")),
  .disposeDirectly 0,
  .occurs (.resume 0),
  .pass 2,
  .turn]

/-- The caller gives up, and nothing else happens while the model is at work. -/
def unattended : List Happening := [.turn, .occurs (.abort 0), .pass 2, .turn]

/-- There are two turns that a call can be made in. -/
theorem eq_of_outpaced {before after : List Happening} (h : outpaced = before ++ .turn :: after) :
    before = [] ∨ before = outpaced.take 5 := by
  rcases before with _ | ⟨x₁, _ | ⟨x₂, _ | ⟨x₃, _ | ⟨x₄, _ | ⟨x₅, _ | ⟨x₆, before⟩⟩⟩⟩⟩⟩
  · exact .inl rfl
  · cases h
  · cases h
  · cases h
  · cases h
  · cases h
    exact .inr rfl
  · cases before <;> cases h

/-- The model was asked, and its reply comes too late; otherwise it would have counted. -/
theorem occur_consults_outpaced :
    ∃ v w u call, (bridged gpt).world = .ok v ∧ w = v.unfold (prepared surroundings.facets) ∧ u = w.occur hello ∧
      Consulted u outpaced call "hello" [] gpt ∧ call.task = 0 ∧
      u.shown 0 outpaced = [.complete "gpt" [
        ("system", "Be brief.\n\nContext:\nLanguage: python\nWorkspace root: /w\nDependencies: numpy, attrs\n" ++
          "Git branch: main\nCurrent file: a.py (python)\nSelection in a.py at line 3, column 0:\n```python\nx = 1\n```\n" ++
          "User preferences: font=mono, rulers=[None, 'soft'], tabs=4"),
        ("user", "hello")] []] ∧
      (∃ f, (u.unfold outpaced).clock.course 0 = some (2, .error f) ∧ f.label = "CancelledOperationError") ∧
      (u.unfold unattended).clock.course 0 = some (2, .ok (.chat {
        message := some "Hello."
        metadata := some [("provider", .text "gpt"),
          ("usage", .object [("input", .number (.int 40)), ("output", .number (.int 0))]),
          ("finish_reason", .text "end"), ("duration_ms", .number (.int 31))] })) := by
  have hshort : ∀ x ∈ surroundings.writes, ∀ n ∈ x.wholes, Value.Short n := by decide +kernel
  have hcan : gpt.CanAsk false surroundings := ⟨rfl, rfl, fun x hx => (Value.inSentence_eq_ok x).mpr (hshort x hx), rfl⟩
  obtain ⟨messages, -, hrequest⟩ := hcan.request "hello"
  obtain ⟨v, hv⟩ : ∃ v, (bridged gpt).world = .ok v := ⟨_, rfl⟩
  obtain ⟨w, hw⟩ : ∃ w, w = v.unfold (prepared surroundings.facets) := ⟨_, rfl⟩
  obtain ⟨u, hu⟩ : ∃ u, u = w.occur hello := ⟨_, rfl⟩
  have ha : w.Arises := ⟨_, v, hv, _, hw⟩
  cases hv
  have hfind : u.clock.tasks.find? u.clock.isReady =
      some ⟨0, .source "stop", .fresh (.call 0 .chat (.text "hello") surroundings)⟩ := by subst hw hu; rfl
  have hp : u.clock.providers[0]? = some (.bridge gpt) := by subst hw hu; rfl
  have hgoing : u.isCancelled (.source "stop") = false := by subst hw hu; rfl
  have hturn := unfold_asking hfind rfl hp (hgoing ▸ hrequest)
  have hcourse : (u.unfold outpaced).clock.course 0 = some (2, .error (.cancelled (some "amplifier:gpt:chat") none)) := by
    rw [outpaced, hturn]
    subst hw hu
    rfl
  have hunattended : (u.unfold unattended).clock.course 0 =
      some (2, (Bridge.finish "gpt" Value.inSentence false 2 (gpt.script.reply 0).outcome).map .chat) := by
    rw [unattended, hturn]
    subst hw hu
    rfl
  rw [finish_gpt] at hunattended
  have hconsulted : Consulted u outpaced ⟨0, 0, 0, .chat, .text "hello", surroundings, .source "stop"⟩ "hello" [] gpt := by
    have hstarts : w.starts hello = some ⟨0, .chat, .text "hello", surroundings, .source "stop"⟩ := by subst hw; rfl
    have hinvites : w.invites ⟨0, .chat, .text "hello", surroundings, .source "stop"⟩ =
      .ok [⟨0, "amplifier:gpt", [.chat]⟩] := by subst hw; rfl
    have hcall : ⟨0, 0, 0, .chat, .text "hello", surroundings, .source "stop"⟩ ∈
        Brief.calls ⟨0, .chat, .text "hello", surroundings, .source "stop"⟩ w.clock.nextTask w.now
          [⟨0, "amplifier:gpt", [.chat]⟩] := by subst hw; exact .head _
    have htasks : (u.unfold outpaced).clock.tasks = [] := by
      rw [outpaced, hturn]
      subst hw hu
      rfl
    rcases hu ▸ occur_consults ha hstarts hinvites rfl hcall outpaced with
      ⟨⟨t, hmem, -⟩, -⟩ | ⟨before, made, hconsulted⟩
    · rw [htasks] at hmem
      cases hmem
    · -- at the second turn it is too late to make the call
      have hfirst : before = [] := by
        obtain ⟨after, hsplit⟩ := made.split
        refine (eq_of_outpaced hsplit).resolve_right fun hsecond => ?_
        have htick := made.tick
        rw [hsecond, outpaced, List.take, hturn] at htick
        subst hw hu
        cases htick
      subst hfirst
      exact hconsulted gpt hp
  refine ⟨_, w, u, _, rfl, hw, hu, hconsulted, rfl, ?_, ⟨_, hcourse, rfl⟩, hunattended⟩
  obtain ⟨lines, hworded, hshown⟩ := hconsulted.asked (hgoing ▸ hcan)
  rw [surroundings_words hworded] at hshown
  exact hshown

/-! ### A model that is not asked -/

/-- The bridge is called with a token that is not cancelled, and it is not disposed of; but its model is not asked. -/
def Unasked (b : ModelBridge) (changes : Changes) : Prop :=
  ∃ v w u call f, (bridged b).world = .ok v ∧ w = v.unfold (prepared changes) ∧ u = w.occur hello ∧
    Made u [.turn] call [] ∧ u.clock.providers[call.provider]? = some (.bridge b) ∧
    u.isCancelled call.token = false ∧ b.disposed = false ∧
    u.shown call.task [.turn] = [] ∧ (u.unfold [.turn]).clock.course call.task = some (call.tick, .error f)

theorem unasked_of_refused {b : ModelBridge} {changes : Changes} {context : Context} {f : Fault} {v u : World}
    (hv : (bridged b).world = .ok v) (hu : u = (v.unfold (prepared changes)).occur hello)
    (hfind : u.clock.tasks.find? u.clock.isReady =
      some ⟨0, .source "stop", .fresh (.call 0 .chat (.text "hello") context)⟩)
    (hp : u.clock.providers[0]? = some (.bridge b)) (hnow : u.now = 0) (hgoing : u.isCancelled (.source "stop") = false)
    (hd : b.disposed = false) (hr : b.request false "hello" context = .error f) : Unasked b changes := by
  have hsound : (u.unfold [.turn]).Sound := by
    have hunfold : u = v.unfold (prepared changes ++ [.occurs hello]) := by
      rw [unfold_concat]
      exact hu
    have harises : u.Arises := ⟨_, v, hv, _, hunfold⟩
    exact harises.sound.unfold _
  have hcalled : u.clock.called? = some ⟨0, 0, 0, .chat, .text "hello", context, .source "stop"⟩ := by
    rw [Clockwork.called?, hfind, Option.bind_some, show u.clock.now = 0 from hnow]
    rfl
  have hmade : Made u ([] ++ [.turn]) ⟨0, 0, 0, .chat, .text "hello", context, .source "stop"⟩ [] := made_now hcalled hnow
  have hasked : Asked u ([] ++ [.turn]) ⟨0, 0, 0, .chat, .text "hello", context, .source "stop"⟩ "hello" [] b :=
    asked_now rfl hfind rfl hnow rfl hp
  unfold Asked at hasked
  rw [show (u.unfold []).isCancelled _ = false from hgoing, hr] at hasked
  obtain ⟨hshown, hended⟩ := hasked
  exact ⟨v, _, u, _, f, hv, rfl, hu, hmade, hp, hgoing, hd, hshown,
    (Clockwork.course_eq_some hsound.numbered).mpr ⟨_, hended, rfl, rfl, rfl⟩⟩

/-- A model takes itself by place, and cannot be given it by name. -/
def selfish : ModelBridge := { gpt with arguments := [("self", .bool true)] }

/-- A preference that is too long to be written. -/
def lengthy (n : Int) : Changes := [.preferences (some [("n", .number (.int n))])]

theorem selfish_unasked : Unasked selfish [] := by
  have hr : selfish.request false "hello" {} =
      .error (.outside .type "complete() got multiple values for argument 'self'" false) :=
    ModelBridge.request_unaccepted "hello" rfl (by simp [Context.writes, Context.worded, Change.writes]) rfl
  exact unasked_of_refused rfl rfl rfl rfl rfl rfl rfl hr

/-- The least number that is too long. -/
def leastLong : Int := (Nat.pow 10 Number.digitLimit : Nat)

theorem lengthy_unasked {n : Int} (h : ¬ Value.Short n) : Unasked gpt (lengthy n) := by
  have hunwritten : ∀ s, gpt.written (.number (.int n)) ≠ .ok s := by
    rw [show gpt.written = Value.inSentence from rfl]
    exact fun s hs => h ((Value.inSentence_eq_ok _).mp ⟨s, hs⟩ n (List.mem_singleton.mpr rfl))
  have hmem : Value.number (.int n) ∈ Context.writes { preferences := some [("n", .number (.int n))] } := by
    simp [Context.writes, Context.worded, Change.writes]
  obtain ⟨x, -, f, -, hr⟩ := ModelBridge.request_unwritten "hello" rfl ⟨_, hmem, hunwritten⟩
  exact unasked_of_refused rfl rfl rfl rfl rfl rfl rfl hr

/-- **That a token is not cancelled and a bridge not disposed of is not enough** for the model to be asked. -/
theorem occur_unasked : Unasked selfish [] ∧ Unasked gpt (lengthy leastLong) := by
  refine ⟨selfish_unasked, lengthy_unasked fun h => ?_⟩
  unfold Value.Short leastLong at h
  rw [Int.natAbs_natCast] at h
  exact Nat.lt_irrefl _ h

end World

end Orchestra
