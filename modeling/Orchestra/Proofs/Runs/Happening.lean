import Mathlib.Data.List.Induction
import Orchestra.Proofs.Runs.Rest

/-!
# Orchestra.Proofs.Runs.Happening — a run as a list of what happens, turn by turn

Occurrences leave open what the clock does.  Here it goes on by itself as well, one turn of one task at a time, operations
look only when no task can run, and time passes only when nothing is left to do at a tick, and not past a tick for which a
task waits.  Nothing else is assumed about the order: `World.unfold` runs any list of happenings, and whatever a scenario
does is such a run (`run_unfolds`).
-/

namespace Orchestra

inductive Happening where
  /-- Something occurs, other than to the clock. -/
  | occurs (x : Occurrence)
  /-- The first task that can run has its turn. -/
  | turn
  /-- Time passes until a tick. -/
  | pass (tick : Tick)
  /-- A provider is to be made ready. -/
  | prepare (provider : Nat)
  | timer (ticks : Nat)
  /-- A provider comes that can be registered. -/
  | provide (p : Provider)
  /-- A provider is disposed of, whoever has registered it. -/
  | disposeDirectly (provider : Nat)
  /-- The journal is taken. -/
  | read

namespace World

/-- Nothing is left to do at this tick, and no task is due before the other. -/
def mayPass (w : World) (tick : Tick) : Bool :=
  w.clock.step.isNone && w.resumeFirst.isNone && Decidable.decide (w.now ≤ tick) && w.clock.nextDue.all (tick ≤ ·)

/-- What can occur by itself: the clock goes on by turns, and operations look only when no task can run. -/
def mayOccur (w : World) : Occurrence → Bool
  | .clock _ => false
  | .resume _ => w.clock.step.isNone
  | _ => true

def happen (w : World) : Happening → World
  | .occurs x => if w.mayOccur x then w.occur x else w
  | .turn => { w with clock := w.clock.step.getD w.clock }
  | .pass tick => if w.mayPass tick then w.at_ tick else w
  | .prepare provider => { w with clock := (w.clock.spawn .none (.prepare provider)).1 }
  | .timer ticks => { w with clock := (w.clock.spawnTimer ticks).1 }
  | .provide p => { w with clock := { w.clock with providers := w.clock.providers ++ [p] } }
  | .disposeDirectly provider => { w with clock := (w.clock.disposeProvider provider).1 }
  | .read => w.takeJournal.1

/-- The world after all that happens, in this order. -/
def unfold (w : World) (xs : List Happening) : World := xs.foldl happen w

@[simp] theorem unfold_nil (w : World) : w.unfold [] = w := rfl

theorem unfold_append (w : World) (xs ys : List Happening) : w.unfold (xs ++ ys) = (w.unfold xs).unfold ys :=
  List.foldl_append

@[simp] theorem unfold_concat (w : World) (xs : List Happening) (x : Happening) :
    w.unfold (xs ++ [x]) = (w.unfold xs).happen x := unfold_append w xs [x]

/-- What shows of the tasks when something happens: they show only in a turn. -/
def showing {α : Type} (see : Clockwork → Option α) (w : World) : Happening → Option α
  | .turn => see w.clock
  | _ => none

/-- What shows of the tasks while all this happens, in order. -/
def inTurns {α : Type} (see : Clockwork → Option α) (w : World) : List Happening → List α
  | [] => []
  | x :: xs => (w.showing see x).toList ++ (w.happen x).inTurns see xs

theorem inTurns_append {α : Type} (see : Clockwork → Option α) (w : World) (xs ys : List Happening) :
    w.inTurns see (xs ++ ys) = w.inTurns see xs ++ (w.unfold xs).inTurns see ys := by
  induction xs generalizing w with
  | nil => rfl
  | cons x xs ih =>
    rw [List.cons_append, inTurns, ih, inTurns, List.append_assoc]
    rfl

theorem inTurns_concat {α : Type} (see : Clockwork → Option α) (w : World) (xs : List Happening) (x : Happening) :
    w.inTurns see (xs ++ [x]) = w.inTurns see xs ++ ((w.unfold xs).showing see x).toList := by
  rw [inTurns_append, inTurns, inTurns, List.append_nil]

variable {u v w : World}

/-! ### What can happen -/

/-- The operation that a happening works on. -/
def atWork (w : World) : Happening → Option Nat
  | .occurs x => w.worksOn x
  | _ => none

/-- What a happening comes to: one operation at most is worked on, a task has its turn, or time passes. -/
inductive Goes (w : World) : Happening → World → Prop
  | works {x : Happening} {v : World} (stopped : Option Nat) (works : Works (w.atWork x) stopped w v)
      (aborted : ∀ task, stopped = some task → ∃ op o context ask, x = .occurs (.abort op) ∧
        w.operations[op]? = some o ∧ o.stage = .resolving context ask task)
      (idle : x = .turn → w.clock.step = none) : Goes w x v
  | turn {clock : Clockwork} (step : w.clock.step = some clock) : Goes w .turn { w with clock }
  | pass {tick : Tick} (step : w.clock.step = none) (rest : w.resumeFirst = none) (le : w.now ≤ tick)
      (due : ∀ due, w.clock.nextDue = some due → tick ≤ due) : Goes w (.pass tick) (w.at_ tick)

theorem happen_goes (w : World) (x : Happening) : Goes w x (w.happen x) := by
  have hsame : ∀ {y : Happening}, (y = .turn → w.clock.step = none) → Goes w y w := fun h =>
    .works none (Works.refl w) nofun h
  have htended : ∀ {clock : Clockwork} {y : Happening}, y ≠ .turn → Clockwork.Tended none w.clock clock →
      Goes w y { w with clock } := fun hy h =>
    .works none (.of_same h rfl (fun _ hd => hd) rfl) nofun fun hturn => absurd hturn hy
  cases x with
  | occurs x =>
    simp only [happen]
    split
    · next hmay =>
      obtain ⟨stopped, hworks, hstopped⟩ := occur_works w x fun c hc => by rw [hc] at hmay; cases hmay
      refine .works stopped hworks (fun task h => ?_) nofun
      obtain ⟨op, o, context, ask, rfl, ho, hs⟩ := hstopped task h
      exact ⟨op, o, context, ask, rfl, ho, hs⟩
    · exact hsame nofun
  | turn =>
    cases hstep : w.clock.step with
    | none =>
      rw [happen, hstep]
      exact hsame fun _ => hstep
    | some clock =>
      rw [happen, hstep]
      exact .turn hstep
  | pass tick =>
    simp only [happen]
    split
    · next hmay =>
      simp only [mayPass, Bool.and_eq_true, Option.isNone_iff_eq_none, decide_eq_true_eq, Option.all_eq_true] at hmay
      exact .pass hmay.1.1.1 hmay.1.1.2 hmay.1.2 hmay.2
    · exact hsame nofun
  | prepare provider => exact htended nofun (Clockwork.tended_spawn _ _ _)
  | timer ticks => exact htended nofun (Clockwork.tended_spawnTimer _ _)
  | provide p => exact htended nofun (.of_same rfl rfl ⟨[], by simp, by simp⟩ rfl rfl)
  | disposeDirectly provider => exact htended nofun (Clockwork.touched_disposeProvider _ _).tended
  | read => exact htended nofun (.of_same rfl rfl ⟨[], by simp, by simp⟩ rfl rfl)

/-- Time does not run backwards. -/
theorem Goes.now_le {x : Happening} (h : Goes w x v) : w.now ≤ v.now := by
  cases h with
  | works stopped works _ _ => exact Nat.le_of_eq works.clock.now.symm
  | turn step => exact Nat.le_of_eq (Clockwork.within_step step).now.symm
  | pass _ _ le _ => exact le

/-- An operation that is not worked on stays as it is. -/
theorem Goes.operation {x : Happening} {op : Nat} {o : Operation} (h : Goes w x v) (hop : w.atWork x ≠ some op)
    (ho : w.operations[op]? = some o) : v.operations[op]? = some o := by
  cases h with
  | works stopped works _ _ => exact works.others op o (fun heq => hop heq.symm) ho
  | turn _ => exact ho
  | pass _ _ _ _ => exact ho

theorem Goes.handed {x : Happening} (h : Goes w x v) : v.handed = w.handed := by
  cases h with
  | works stopped works _ _ => exact works.handed
  | turn _ => rfl
  | pass _ _ _ _ => rfl

theorem unfold_handed (w : World) (xs : List Happening) : (w.unfold xs).handed = w.handed := by
  induction xs using List.reverseRecOn with
  | nil => rfl
  | append_singleton xs x ih =>
    rw [unfold_concat]
    exact (happen_goes _ x).handed.trans ih

/-- Nothing shows where no task can run. -/
theorem showing_eq_none {α : Type} {see : Clockwork → Option α} {x : Happening}
    (h : x = .turn → see w.clock = none) : w.showing see x = none := by
  cases x with
  | turn => exact h rfl
  | occurs _ | pass _ | prepare _ | timer _ | provide _ | disposeDirectly _ | read => rfl

/-! ### What runs of the model are -/

/-- The second world is the first after something happened. -/
def Unfolds (w v : World) : Prop := ∃ xs, v = w.unfold xs

theorem Unfolds.refl (w : World) : Unfolds w w := ⟨[], rfl⟩

theorem Unfolds.trans (h : Unfolds w v) (h' : Unfolds v u) : Unfolds w u := by
  obtain ⟨xs, rfl⟩ := h
  obtain ⟨ys, rfl⟩ := h'
  exact ⟨xs ++ ys, (unfold_append w xs ys).symm⟩

theorem happen_unfolds (w : World) (x : Happening) : Unfolds w (w.happen x) := ⟨[x], rfl⟩

/-- Whatever happens by itself can occur. -/
theorem Unfolds.follows (h : Unfolds w v) : Follows w v := by
  obtain ⟨xs, rfl⟩ := h
  induction xs using List.reverseRecOn with
  | nil => exact Follows.refl w
  | append_singleton xs x ih =>
    rw [unfold_concat]
    refine ih.trans ?_
    generalize w.unfold xs = u
    cases x with
    | occurs x =>
      simp only [happen]
      split
      · exact u.occur_follows x
      · exact Follows.refl u
    | pass tick =>
      simp only [happen]
      split
      · exact u.clock_follows _
      · exact Follows.refl u
    | turn | prepare _ | timer _ | provide _ | disposeDirectly _ | read => exact u.clock_follows _

theorem occur_unfolds (w : World) {x : Occurrence} (h : w.mayOccur x = true) : Unfolds w (w.occur x) :=
  ⟨[.occurs x], by rw [unfold, List.foldl_cons, List.foldl_nil, happen, if_pos h]⟩

theorem begin_unfolds (w : World) (order : Order) (token : Token) : Unfolds w (w.begin order token).1 :=
  w.occur_unfolds (x := .begin order token) rfl

theorem register_unfolds {p : ProviderRef} {kinds : Option (List Capability)} {handle : Nat}
    (h : w.register p kinds = .ok (v, handle)) : Unfolds w v := by
  have hoccur : w.occur (.register p kinds) = v := by simp only [occur, h]
  exact hoccur ▸ w.occur_unfolds rfl

theorem setContext_unfolds {extras : Extras} {fields : Changes} {context : Context}
    (h : w.setContext extras fields = .ok (v, context)) : Unfolds w v := by
  have hoccur : w.occur (.setContext extras fields) = v := by simp only [occur, h]
  exact hoccur ▸ w.occur_unfolds rfl

/-- Tasks settle turn by turn. -/
theorem tasks_unfold (w : World) : Unfolds w { w with clock := w.clock.settle } := by
  refine Clockwork.settle_induction (P := fun c => Unfolds w { w with clock := c }) (fun c c' h hstep => h.trans ?_)
    (Unfolds.refl w)
  refine ⟨[.turn], ?_⟩
  show ({ w with clock := c' } : World) = { w with clock := c.step.getD c }
  rw [hstep, Option.getD_some]

theorem ran_unfolds (w : World) : Unfolds w w.ran := w.tasks_unfold.trans (occur_unfolds _ (x := .tell) rfl)

theorem resume_unfolds {op : Nat} {o : Operation} (hstep : w.clock.step = none) (ho : w.operations[op]? = some o)
    (h : w.resume op o = some v) : Unfolds w v := by
  have hoccur : w.occur (.resume op) = v := by
    rw [occur, ho, Option.bind_some, h, Option.getD_some]
  exact hoccur ▸ w.occur_unfolds (by rw [mayOccur, hstep]; rfl)

theorem turn_unfolds (n : Nat) (w : World) : Unfolds w (turn n w) := by
  induction n generalizing w with
  | zero => exact w.ran_unfolds
  | succ n ih =>
    rw [turn_succ]
    cases hr : w.ran.resumeFirst with
    | none => exact w.ran_unfolds
    | some v =>
      obtain ⟨op, o, ho, hv⟩ := resumeFirst_eq_some hr
      exact (w.ran_unfolds.trans (resume_unfolds w.ran_step ho hv)).trans (ih v)

theorem settle_unfolds (w : World) : Unfolds w w.settle := (w.occur_unfolds (x := .due) rfl).trans (turn_unfolds _ _)

/-- Time moves on from rest. -/
theorem AtRest.unfolds (h : w.AtRest) {tick : Tick} (hnext : w.nextDue = some tick) : Unfolds w (w.at_ tick) := by
  obtain ⟨hlt, hdue⟩ := h.nextDue hnext
  refine ⟨[.pass tick], ?_⟩
  have hmay : w.mayPass tick = true := by
    simp only [mayPass, h.step, h.resume, Bool.and_eq_true, decide_eq_true_eq, Option.all_eq_true, Option.isNone_none]
    exact ⟨⟨⟨trivial, trivial⟩, Nat.le_of_lt hlt⟩, hdue⟩
  rw [unfold, List.foldl_cons, List.foldl_nil, happen, if_pos hmay]

theorem passTime_unfolds (condition : World → Bool) (n : Nat) (w : World) :
    Unfolds w (passTime condition n w).1 := by
  induction n generalizing w with
  | zero => exact Unfolds.refl w
  | succ n ih =>
    rw [passTime]
    dsimp only
    split
    · exact w.settle_unfolds
    · split
      · exact w.settle_unfolds
      · next tick hnext => exact (w.settle_unfolds.trans (w.settle_rest.unfolds hnext)).trans (ih _)

theorem waitFor_unfolds (w : World) (condition : World → Bool) : Unfolds w (w.waitFor condition).1 :=
  passTime_unfolds _ _ _

theorem sleep_unfolds (w : World) (ticks : Nat) : Unfolds w (w.sleep ticks).1 :=
  (w.happen_unfolds (.timer ticks)).trans (waitFor_unfolds _ _)

end World

namespace Scenario.Service

open World

namespace Session

variable (s : Session)

theorem reach_unfolds (op : Nat) : Unfolds s.world (s.reach op).1.world := by
  have h := s.world.waitFor_unfolds fun w => (w.outcome? op).isSome
  unfold reach
  dsimp only
  split
  · exact h
  · split <;> exact h

theorem register_unfolds (index : Nat) (name : String) (kinds : Except Fault (Option (List Capability))) :
    Unfolds s.world (s.register index name kinds).1.world := by
  unfold register
  split
  · exact Unfolds.refl _
  · exact Unfolds.refl _
  · split
    · exact Unfolds.refl _
    · next h => exact World.register_unfolds h

theorem step_unfolds (step : Step) : Unfolds s.world (s.step step).1.world := by
  cases step with
  | call order token => exact (s.world.begin_unfolds order token).trans (reach_unfolds _ _)
  | start name order token => exact s.world.begin_unfolds order token
  | join name =>
    unfold Session.step
    dsimp only
    split
    · exact Unfolds.refl _
    · exact s.reach_unfolds _
  | abort name =>
    unfold Session.step
    dsimp only
    split
    · exact Unfolds.refl _
    · exact s.world.occur_unfolds (x := .abort _) rfl
  | sleep ticks => exact s.world.sleep_unfolds ticks
  | cancel source => exact s.world.occur_unfolds (x := .deed (.cancel source)) rfl
  | register index name kinds => exact s.register_unfolds index name kinds
  | add index name kinds =>
    have h := (s.world.happen_unfolds (.prepare index)).trans (waitFor_unfolds _
      fun w => (w.clock.ending? (s.world.clock.spawn .none (.prepare index)).2).isSome)
    unfold Session.step
    dsimp only
    split
    · exact h
    · exact h.trans (register_unfolds _ _ _ _)
    · exact h
  | dispose name =>
    unfold Session.step
    dsimp only
    split
    · exact Unfolds.refl _
    · exact s.world.occur_unfolds (x := .dispose _) rfl
  | onDispose name =>
    unfold Session.step
    dsimp only
    split
    · exact Unfolds.refl _
    · exact s.world.occur_unfolds (x := .onDispose _ .fail) rfl
  | disposeBridge index => exact s.world.happen_unfolds (.disposeDirectly index)
  | listen stream name reaction => exact s.world.occur_unfolds (x := .listen stream name reaction) rfl
  | unlisten name => exact s.world.occur_unfolds (x := .unlisten name) rfl
  | setContext extras fields =>
    unfold Session.step
    dsimp only
    split
    · exact Unfolds.refl _
    · next h => exact setContext_unfolds h
  | clearContext => exact s.world.occur_unfolds (x := .clearContext) rfl
  | close => exact s.world.occur_unfolds (x := .close) rfl
  | providers kind => exact Unfolds.refl _
  | getContext => exact Unfolds.refl _
  | history => exact Unfolds.refl _
  | metrics => exact Unfolds.refl _
  | faulty f => exact Unfolds.refl _

/-- **Whatever the steps are, they make a run.** -/
theorem run_unfolds (steps : List Step) : Unfolds s.world (run s steps).2.world := by
  induction steps generalizing s with
  | nil => exact Unfolds.refl _
  | cons step rest ih =>
    have h := s.step_unfolds step
    rw [run]
    split
    · next hs => rw [hs] at h; exact h.trans (happen_unfolds _ .read)
    · next hs =>
      rw [hs] at h
      exact ((h.trans (settle_unfolds _)).trans (happen_unfolds _ .read)).trans (ih _)

end Session

theorem bridgeAll_unfolds (bridges : List ModelBridge) (w : World) : Unfolds w (bridgeAll w bridges) := by
  induction bridges generalizing w with
  | nil => exact Unfolds.refl w
  | cons b rest ih =>
    have h := w.happen_unfolds (.provide (.bridge b))
    rw [bridgeAll]
    dsimp only
    split
    · exact h.trans (ih _)
    · next hr => exact (h.trans (World.register_unfolds hr)).trans (ih _)

theorem mount_unfolds {s : Setting} {w v : World} {cleanup : Bool} (hw : s.world = .ok w)
    (h : mount s = (some v, cleanup)) : Unfolds w v := by
  unfold mount at h
  rw [hw] at h
  split at h
  · cases h
  · cases h
  · next hok _ =>
    cases hok
    split at h
    · -- the service was refused: it is there only if it was kept all the same
      split at h
      · cases h; exact Unfolds.refl w
      · cases h
    · split at h
      · cases h; exact Unfolds.refl w
      · split at h
        · cases h; exact Unfolds.refl w
        · split at h
          · cases h; exact bridgeAll_unfolds _ w
          · cases h; exact Unfolds.refl w
          · cases h; exact bridgeAll_unfolds _ w

theorem updateBeforehand_unfolds (w : World) (d : Changes) : Unfolds w (updateBeforehand w d) :=
  w.occur_unfolds (x := .commit .nothing d) rfl

end Scenario.Service

end Orchestra
