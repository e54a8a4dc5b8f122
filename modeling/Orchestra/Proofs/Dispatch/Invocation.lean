import Orchestra.Proofs.Clockwork.Underway
import Orchestra.Proofs.Dispatch.Waiting

/-!
# Orchestra.Proofs.Dispatch.Invocation — a fan-out calls every provider once, and each call runs to its own end

Every provider that is listed when a fan-out starts is called exactly once, in order, at that tick, and with the same.
What then becomes of the call is decided by the reply that its provider has for it and by its token: the fan-out may be
decided, fail or be aborted meanwhile, and anything else may happen, and still the call ends when and how it was bound to
(`occur_invokes`).
-/

namespace Orchestra

namespace Clockwork

variable {c : Clockwork} {t : Task} {task : Nat} {F : List Tick}

theorem finding?_of_step (h : c.step = none) : c.finding? task = none := by
  rw [finding?, List.find?_eq_none.mpr fun t ht => by simp [step_eq_none.mp h t ht], Option.bind_none]

theorem finding?_of_other (hfind : c.tasks.find? c.isReady = some t) (hne : t.id ≠ task) : c.finding? task = none := by
  rw [finding?, hfind, Option.bind_some, if_neg]
  simp [hne]

/-- What a task finds in its turn is added to what it has found. -/
theorem findings_of_turn (hfind : c.tasks.find? c.isReady = some t) :
    F ++ (c.finding? t.id).toList = c.findings t.token F := by
  rw [finding?, hfind, Option.bind_some, findings]
  cases c.isCancelled t.token <;> simp

end Clockwork

namespace World

variable {v w : World} {b : Brief} {ps : List ProviderRef} {xs : List Happening} {call : Call}

/-- The ticks of the turns in which a task finds its token cancelled. -/
def findings (w : World) (task : Nat) (xs : List Happening) : List Tick := w.inTurns (·.finding? task) xs

/-- The call is made in the turn that comes after all this, and begins there. -/
structure Made (v : World) (xs : List Happening) (call : Call) (before : List Happening) : Prop where
  split : ∃ after, xs = before ++ .turn :: after
  called : (v.unfold before).clock.called? = some call
  tick : (v.unfold before).now = call.tick
  begins : ∃ t, t.id = call.task ∧ t.token = call.token ∧ (v.unfold before).clock.step =
    some (((v.unfold before).clock.without t).begin t (.call call.provider call.kind call.payload call.context))

theorem Made.concat {before : List Happening} (h : Made v xs call before) (x : Happening) :
    Made v (xs ++ [x]) call before := by
  obtain ⟨after, rfl⟩ := h.split
  exact ⟨⟨after ++ [x], by rw [List.append_assoc, List.cons_append]⟩, h.called, h.tick, h.begins⟩

/-- The call is still to be made at this tick, or it was made and stands where its provider and its token put it. -/
inductive Invoked (v : World) (xs : List Happening) (call : Call) : Prop
  | ahead (t : Task) (mem : t ∈ (v.unfold xs).clock.tasks) (calls : Clockwork.call? call.tick t = some call)
      (now : (v.unfold xs).now = call.tick) (unfound : v.findings call.task xs = [])
  | made (before : List Happening) (made : Made v xs call before)
      (founded : (v.unfold xs).clock.Founded call.token (v.findings call.task xs))
      (standing : (v.unfold xs).clock.Standing (v.findings call.task xs)
        ((v.unfold before).clock.courseUnder call.kind call.payload call.context call.token call.provider) call.token
        call.task)

/-- While others are at work or have their turn, a call stands as before. -/
theorem Invoked.others {x : Happening} (h : Invoked v xs call) (hsound : (v.unfold xs).Sound)
    (hfindings : v.findings call.task (xs ++ [x]) = v.findings call.task xs)
    (hwithin : (v.unfold xs).clock.Within (v.unfold (xs ++ [x])).clock)
    (htasks : ∀ t ∈ (v.unfold xs).clock.tasks, t.id = call.task → t ∈ (v.unfold (xs ++ [x])).clock.tasks) :
    Invoked v (xs ++ [x]) call := by
  cases h with
  | ahead t mem calls now unfound =>
    have hid := (Clockwork.call?_eq_some calls).1
    exact .ahead t (htasks t mem hid.symm) calls (hwithin.now.trans now) (hfindings.trans unfound)
  | made before made founded standing =>
    refine .made before (made.concat x) (hfindings ▸ founded.within hwithin) ?_
    rw [hfindings]
    exact standing.within (Clockwork.steadfast_courseUnder _ _ _ _ _ _) hwithin hsound.timely founded htasks

/-- In the turn of its task, a call is made or goes on. -/
theorem Invoked.turn {t : Task} (h : Invoked v xs call) (hsound : (v.unfold xs).Sound)
    (hfind : (v.unfold xs).clock.tasks.find? (v.unfold xs).clock.isReady = some t) (hid : t.id = call.task)
    (hclock : (v.unfold (xs ++ [.turn])).clock = (v.unfold xs).clock.goOn t) : Invoked v (xs ++ [.turn]) call := by
  have hmem := List.mem_of_find?_eq_some hfind
  have hstep : (v.unfold xs).clock.step = some ((v.unfold xs).clock.goOn t) := Clockwork.step_eq_some.mpr ⟨t, hfind, rfl⟩
  have hwithin := Clockwork.within_step hstep
  have hfindings : v.findings call.task (xs ++ [.turn]) =
      (v.unfold xs).clock.findings t.token (v.findings call.task xs) := by
    rw [← Clockwork.findings_of_turn hfind, hid]
    exact inTurns_concat _ v xs .turn
  cases h with
  | ahead t' mem calls now unfound =>
    obtain ⟨hcid, hctoken, htick, hstate⟩ := Clockwork.call?_eq_some calls
    obtain rfl := Clockwork.task_unique hsound.numbered hmem mem (hid.trans hcid)
    have hcalled : (v.unfold xs).clock.called? = some call := by
      rw [Clockwork.called?, hfind, Option.bind_some, ← calls, ← now]
      rfl
    have hgo : (v.unfold xs).clock.goOn t = ((v.unfold xs).clock.without t).begin t
        (.call call.provider call.kind call.payload call.context) := by rw [Clockwork.goOn, hstate]
    rw [unfound] at hfindings
    obtain ⟨t', -, hid', htoken', -, -, hbegins⟩ := Clockwork.step_of_called hcalled
    refine .made xs ⟨⟨[], rfl⟩, hcalled, now, t', hid', htoken', hbegins⟩ ?_ ?_
    · rw [hclock, hfindings, hctoken]
      exact Clockwork.Founded.findings hwithin fun _ => rfl
    · rw [hclock, hfindings, hgo, hctoken, hcid]
      exact Clockwork.begin_standing (hsound.timely.without t) _ _ _ _
  | made before made founded standing =>
    rw [← hid] at standing
    rw [standing.token_eq hsound.numbered hmem] at hfindings
    refine .made before (made.concat _) ?_ ?_
    · rw [hclock, hfindings]
      exact founded.findings hwithin
    · rw [hclock, hfindings, ← hid]
      exact standing.goOn hsound.numbered hsound.timely (hid ▸ founded) hmem (List.find?_some hfind)

/-- **Whatever happens next**, a call is made in its turn and otherwise stands as before. -/
theorem Invoked.concat (h : Invoked v xs call) (hsound : (v.unfold xs).Sound) (hspares : (v.unfold xs).Spares call.task)
    (x : Happening) : Invoked v (xs ++ [x]) call := by
  have hfindings : ∀ {shown : Option Tick}, (v.unfold xs).showing (·.finding? call.task) x = shown →
      v.findings call.task (xs ++ [x]) = v.findings call.task xs ++ shown.toList :=
    fun hshown => hshown ▸ inTurns_concat _ v xs x
  have hunfold : v.unfold (xs ++ [x]) = (v.unfold xs).happen x := unfold_concat v xs x
  have hgoes := happen_goes (v.unfold xs) x
  rw [← hunfold] at hgoes
  generalize hu : v.unfold (xs ++ [x]) = u at hgoes
  cases hgoes with
  | works stopped works aborted idle =>
    have hnone : (v.unfold xs).showing (·.finding? call.task) x = none :=
      showing_eq_none fun hx => Clockwork.finding?_of_step (idle hx)
    refine h.others hsound ((hfindings hnone).trans (List.append_nil _)) (hu ▸ works.clock.within) fun t ht hid => hu ▸ ?_
    exact (works.mem_tasks (resolves_of_aborted aborted) (hid ▸ hspares)).mpr ht
  | @pass tick step rest le due =>
    have hnone : (v.unfold xs).showing (·.finding? call.task) (.pass tick) = none := rfl
    have hsame : v.findings call.task (xs ++ [.pass tick]) = v.findings call.task xs :=
      (hfindings hnone).trans (List.append_nil _)
    cases h with
    | ahead t mem calls now unfound =>
      rw [Clockwork.call?_of_not_ready (Clockwork.step_eq_none.mp step t mem)] at calls
      cases calls
    | made before made founded standing =>
      refine .made before (made.concat _) ?_ ?_
      · rw [hu, hsame]
        refine fun hno => founded (hno.symm.trans ?_).symm
        cases call.token <;> rfl
      · rw [hu, hsame]
        exact standing.at_ step le due
  | @turn clock step =>
    have hclock : (v.unfold (xs ++ [.turn])).clock = clock := congrArg World.clock hu
    obtain ⟨t, hfind, rfl⟩ := Clockwork.step_eq_some.mp step
    by_cases hid : t.id = call.task
    · exact h.turn hsound hfind hid hclock
    · have hnone : (v.unfold xs).showing (·.finding? call.task) .turn = none := Clockwork.finding?_of_other hfind hid
      refine h.others hsound ((hfindings hnone).trans (List.append_nil _)) (hclock ▸ Clockwork.within_step step)
        fun t' ht hidt => hclock ▸ ?_
      exact (Clockwork.turn_goOn t).mem_tasks ht fun heq => hid (heq.symm.trans hidt)

/-- Every call of a fan-out that has started is made in its turn and stands where it was bound to. -/
theorem Started.invoked (h : Started w v b ps) (xs : List Happening) {call : Call}
    (hcall : call ∈ b.calls w.clock.nextTask w.now ps) : Invoked v xs call := by
  obtain ⟨⟨p, i⟩, hmem, rfl⟩ := List.mem_map.mp hcall
  have htask : i ∈ w.tasksFor ps := by
    unfold tasksFor
    rw [← List.zipIdx_map_snd]
    exact List.mem_map_of_mem hmem
  induction xs using List.reverseRecOn with
  | nil =>
    refine .ahead ⟨i, b.token, .fresh (.call p.index b.kind b.payload b.context)⟩ ?_ rfl ?_ rfl
    · rw [unfold_nil, h.launched.clock]
      exact List.mem_append_right _ (List.mem_map_of_mem (f := fun x : ProviderRef × Nat =>
        (⟨x.2, b.token, .fresh (.call x.1.index b.kind b.payload b.context)⟩ : Task)) hmem)
    · show v.clock.now = w.clock.now
      rw [h.launched.clock]
      rfl
  | append_singleton xs x ih => exact ih.concat (h.after.unfold xs) ((h.spares htask).unfold xs) x

/-- **A call runs to its own end**: where no task can run it has been made, and has ended by now exactly if the reply that
its provider had for it and its token say so. -/
theorem Invoked.course_eq (h : Invoked v xs call) (hsound : (v.unfold xs).Sound) (hstep : (v.unfold xs).clock.step = none) :
    ∃ before, Made v xs call before ∧ (v.unfold xs).clock.course call.task =
      ((v.unfold before).clock.courseUnder call.kind call.payload call.context call.token call.provider
        ((v.unfold xs).clock.firing call.token (v.findings call.task xs))).upTo (v.unfold xs).now := by
  cases h with
  | ahead t mem calls now unfound =>
    rw [Clockwork.call?_of_not_ready (Clockwork.step_eq_none.mp hstep t mem)] at calls
    cases calls
  | made before made founded standing =>
    exact ⟨before, made, standing.course_eq hsound.numbered hsound.timely hstep⟩

/-- **Every provider is called exactly once, and each call runs to its own end.**  A fan-out that is not refused starts one
task for each provider that is listed, in order, and whatever happens afterwards: these tasks make no calls but those, in
that order, at that tick and all with the same; where no task can run, all of them have been made, and each has ended by now
exactly if the reply that its provider had for it and the cancellation of its token say so, then and in that way; and the
looks of the operation, and whoever aborts it, touch no task. -/
theorem occur_invokes {x : Occurrence} (ha : w.Arises) (hb : w.starts x = some b) (hi : w.invites b = .ok ps)
    (xs : List Happening) :
    ps = w.service.ledger.registry.providersFor b.kind ∧
    (w.occur x).clock = w.clock.calling b.kind b.payload b.context b.token ps ∧
    ((w.occur x).calls xs).filter (·.task ∈ w.tasksFor ps) <+: b.calls w.clock.nextTask w.now ps ∧
    (((w.occur x).unfold xs).clock.step = none →
      ((w.occur x).calls xs).filter (·.task ∈ w.tasksFor ps) = b.calls w.clock.nextTask w.now ps ∧
      ∀ call ∈ b.calls w.clock.nextTask w.now ps, ∃ before, Made (w.occur x) xs call before ∧
        ((w.occur x).unfold xs).clock.course call.task =
          (((w.occur x).unfold before).clock.courseUnder b.kind b.payload b.context b.token call.provider
            (((w.occur x).unfold xs).clock.firing b.token ((w.occur x).findings call.task xs))).upTo
              ((w.occur x).unfold xs).now) ∧
    ∀ y, ((w.occur x).unfold xs).atWork y = some b.op →
      Aside ((w.occur x).unfold xs) (((w.occur x).unfold xs).happen y) := by
  have started : Started w (w.occur x) b ps := ⟨ha.sound, ⟨x, hb, rfl⟩, hi⟩
  obtain ⟨hmade, -⟩ := started.calls xs
  refine ⟨(invites_ok hi).1, started.launched.clock, ⟨_, hmade⟩, fun hstep => ⟨?_, fun call hcall => ?_⟩, fun y hy => ?_⟩
  · rw [← hmade, Clockwork.toCall_of_step hstep, List.append_nil]
  · obtain ⟨before, made, hcourse⟩ := (started.invoked xs hcall).course_eq (started.after.unfold xs) hstep
    obtain ⟨x, -, rfl⟩ := List.mem_map.mp hcall
    exact ⟨before, made, hcourse⟩
  · obtain ⟨o, ho, -, hbare, hflying⟩ := started.launched.operation
    have hstands : (w.occur x).Stands b.op o none := ⟨o.stage, ho, rfl⟩
    obtain ⟨d, hd⟩ := hstands.unfold hflying hbare xs
    exact hd.aside hflying hbare hy

/-- Two providers: the one that is called first cancels the token at once and fails, and the other takes its time. -/
def hasty : Scenario.Service.Setting where
  config := []
  coordinator := none
  providers := [
    .scripted {
      key := "rash", id := "rash", capabilities := [.chat], init := { outcome := .ok () }, disposeFault := none
      script := ⟨{ cancel := some "stop", outcome := .error .interrupted }, []⟩ },
    .scripted {
      key := "slow", id := "slow", capabilities := [.chat], init := { outcome := .ok () }, disposeFault := none
      script := ⟨{ delay := 2, outcome := .ok fun kind => .ok (.emptyFor kind) }, []⟩ }]
  cancelled := []
  resolver := none
  beforehand := []
  mounts := false
  steps := []
  suffix := fun _ _ => "0"

/-- Both are registered. -/
def listing : List Happening := [
  .occurs (.register ⟨0, "rash", [.chat]⟩ none),
  .occurs (.register ⟨1, "slow", [.chat]⟩ none)]

/-- Both are called, the fan-out is decided by the cancellation, and time passes. -/
def hurry : List Happening := [.turn, .turn, .occurs (.resume 0), .pass 2, .turn]

theorem occur_invokes_hasty :
    ∃ v w u, hasty.world = .ok v ∧ w = v.unfold listing ∧
      u = w.occur (.begin (.service "ask" .chat (.text "hello") none) (.source "stop")) ∧
      ((u.calls hurry).filter (·.task ∈ [0, 1])).map (fun call => (call.provider, call.tick)) = [(0, 0), (1, 0)] ∧
      (∃ call before, call.task = 1 ∧ Made u hurry call before) ∧
      ((u.unfold hurry).outcome? 0).map Prod.snd = some 0 ∧
      ((u.unfold hurry).clock.course 1).map Prod.fst = some 2 := by
  refine ⟨_, _, _, rfl, rfl, rfl, ?_⟩
  obtain ⟨-, -, -, hall, -⟩ := occur_invokes (w := World.unfold _ listing)
    (x := .begin (.service "ask" .chat (.text "hello") none) (.source "stop"))
    ⟨hasty, _, rfl, listing, rfl⟩ rfl rfl hurry
  obtain ⟨hcalls, hcourses⟩ := hall rfl
  obtain ⟨before, made, -⟩ := hcourses _ (.tail _ (.head _))
  exact ⟨congrArg (List.map _) hcalls, ⟨_, before, rfl, made⟩, rfl, rfl⟩

end World

end Orchestra
