import Orchestra.Proofs.Runs.Following

/-!
# Orchestra.Proofs.Runs.Lookup — a workspace that is looked up is found, or is not, after its time

The task in which a workspace is looked up has its first turn before time passes, and follows the reply from then on
(`LooksUp`), unless whoever waits for it is aborted.  What it ends with is what the reply says, and it has ended wherever no
task can run and the delay is over.
-/

namespace Orchestra

namespace World

variable {v : World} {xs : List Happening} {x : Happening} {task : Nat} {start : Tick} {reply : Reply Workspace}

/-- The look-up that was begun at a tick is still to have its first turn, or it follows its reply. -/
inductive LooksUp (v : World) (xs : List Happening) (task : Nat) (start : Tick) (reply : Reply Workspace) : Prop
  | ahead (mem : ⟨task, .none, .fresh (.resolve reply)⟩ ∈ (v.unfold xs).clock.tasks) (now : (v.unfold xs).now = start)
  | begun (pursues : Pursues v xs task .none start reply.withoutToken (.resolve reply.outcome))

/-- **Whatever happens next**, a look-up goes on that nobody stops. -/
theorem LooksUp.concat (h : LooksUp v xs task start reply) (hv : (v.unfold xs).Sound)
    (htol : (v.unfold xs).Tolerates task x) : LooksUp v (xs ++ [x]) task start reply := by
  cases h with
  | begun pursues => exact .begun (pursues.concat (Reply.heedless_withoutToken _) hv htol)
  | ahead mem now =>
    have hgoes := happen_goes (v.unfold xs) x
    rw [← unfold_concat] at hgoes
    obtain hkept | ⟨rfl, hfind, hclock⟩ := hgoes.keeps hv htol mem
    · refine .ahead hkept ?_
      generalize v.unfold (xs ++ [x]) = u at hgoes
      cases hgoes with
      | works stopped works _ _ => exact works.clock.now.trans now
      | turn step => exact (Clockwork.within_step step).now.trans now
      | pass step _ _ _ => cases Clockwork.step_eq_none.mp step _ mem
    · refine .begun (pursues_of_steps mem ?_)
      rw [hclock, ← now]
      exact Clockwork.steps_moves (Reply.heedless_withoutToken _)

/-- A look-up ends with what its reply says. -/
theorem LooksUp.ending (h : LooksUp v xs task start reply) (hv : (v.unfold xs).Sound) {outcome : Except Fault Yield}
    (hending : (v.unfold xs).clock.ending? task = some outcome) : outcome = reply.outcome.map .workspace := by
  obtain ⟨e, he, rfl⟩ := Option.map_eq_some_iff.mp hending
  have hid : e.task = task := by simpa using List.find?_some he
  have hmem := List.mem_of_find?_eq_some he
  cases h with
  | ahead mem now => exact absurd hid.symm (hv.numbered.not_ended mem hmem)
  | begun pursues =>
    obtain ⟨-, -, mid, -, -, -, -, -, houtcome⟩ := pursues.ended_eq hv hmem hid
    exact houtcome

/-- **Where no task can run**, a look-up has ended whose delay is over. -/
theorem LooksUp.elapsed (h : LooksUp v xs task start reply) (hv : (v.unfold xs).Sound)
    (hstep : (v.unfold xs).clock.step = none) (hwait : reply.wait = none)
    (hle : start + reply.delay ≤ (v.unfold xs).now) : ∃ outcome, (v.unfold xs).clock.ending? task = some outcome := by
  cases h with
  | ahead mem now => cases Clockwork.step_eq_none.mp hstep _ mem
  | begun pursues =>
    have hwait : reply.withoutToken.wait = none := by rw [Reply.withoutToken, hwait]; rfl
    obtain ⟨e, he, hid⟩ := (pursues.ended_iff hv hstep).mpr ⟨hwait, hle⟩
    have hsome : ((v.unfold xs).clock.ended.find? (·.task == task)).isSome = true :=
      List.find?_isSome.mpr ⟨e, he, beq_iff_eq.mpr hid⟩
    obtain ⟨e', he'⟩ := Option.isSome_iff_exists.mp hsome
    exact ⟨e'.outcome, Option.map_eq_some_iff.mpr ⟨e', he', rfl⟩⟩

end World

end Orchestra
