import Orchestra.Proofs.Dispatch.Moments
import Orchestra.Proofs.Dispatch.Waiting

/-!
# Orchestra.Proofs.Dispatch.Watch — what a fan-out goes by

A fan-out sees less of time than the clock shows: it looks when no task can run, so of what happens at a tick it matters
only whether it came before the first look at that tick or after.  A watch counts these moments, and notes at which of them
the token was cancelled and each call answered.  What it notes is true, whatever happens (`Faithful.next`), and what it
notes later does not change what it has noted (`next_upTo`).
-/

namespace Orchestra

namespace Clockwork

variable {c c' : Clockwork} {t : Task} {task : Nat}

theorem isReady_eq (hnow : c'.now = c.now) (hcancelled : c'.isCancelled t.token = c.isCancelled t.token) :
    c'.isReady t = c.isReady t := by
  unfold isReady
  rw [hnow, hcancelled]

theorem course_eq (h : c'.ended = c.ended) (task : Nat) : c'.course task = c.course task := by
  unfold course
  rw [h]

/-- How a call ended stays known. -/
theorem course_append {more : List Ended} (h : c'.ended = c.ended ++ more) {x : Tick × Ending}
    (hx : c.course task = some x) : c'.course task = some x := by
  obtain ⟨e, he, hcall⟩ := Option.bind_eq_some_iff.mp hx
  unfold course
  rw [h, List.find?_append, he, Option.some_or, Option.bind_some, hcall]

/-- What a turn makes known is about the task that had it. -/
theorem Turn.course {size : Nat} {x : Tick × Ending} (turn : Turn t size c c') (hnone : c.course task = none)
    (hx : c'.course task = some x) : task = t.id ∧ x.1 = c.now := by
  obtain ⟨o, -, hended⟩ | ⟨wake, moves, last, -, -, hended⟩ := turn.went
  · obtain ⟨e, he, hcall⟩ := Option.bind_eq_some_iff.mp hx
    rw [hended, List.find?_append] at he
    cases hold : c.ended.find? (·.task == task) with
    | some e' =>
      rw [hold, Option.some_or] at he
      rw [Clockwork.course, hold, he, Option.bind_some, hcall] at hnone
      cases hnone
    | none =>
      rw [hold, Option.none_or, List.find?_singleton] at he
      split at he
      · next hid =>
        cases he
        obtain ⟨y, -, rfl⟩ := Option.map_eq_some_iff.mp hcall
        exact ⟨(beq_iff_eq.mp hid).symm, rfl⟩
      · cases he
  · rw [course_eq hended, hnone] at hx
    cases hx

end Clockwork

/-- What a fan-out goes by: the world, and the moments at which its token was cancelled and its calls were answered. -/
structure Watch where
  world : World
  /-- The fan-out has looked at this tick. -/
  looked : Bool := false
  fired : Option Nat := none
  answer : Nat → Course := fun _ => none

namespace Watch

/-- Moments are even before the first look at a tick, and odd from then on. -/
def moment (g : Watch) : Nat := 2 * g.world.now + g.looked.toNat

/-- The operation looks, which it does only when no task can run. -/
def looks (op : Nat) (w : World) : Happening → Bool
  | .occurs (.resume i) => i == op && w.clock.step.isNone
  | _ => false

/-- What is noted of a happening, by an operation with that token. -/
def next (op : Nat) (token : Token) (g : Watch) (x : Happening) : Watch :=
  let world := g.world.happen x
  let looked := world.now == g.world.now && (g.looked || looks op g.world x)
  let moment := 2 * world.now + looked.toNat
  { world, looked
    fired := g.fired.or (if world.isCancelled token then some moment else none)
    answer := fun task => (g.answer task).or ((world.clock.course task).map fun y => (moment, y.2)) }

/-- How a fan-out is decided, by what is noted. -/
def decision (g : Watch) (f : Flight) : Option (Nat × Except Fault Result) :=
  FanOut.decision f.kind g.fired (FanOut.closedForm f.kind f.policy (FanOut.coursesOf f.calls g.answer))

end Watch

namespace World

/-- What is noted of all this. -/
def watch (w : World) (op : Nat) (token : Token) (xs : List Happening) : Watch :=
  xs.foldl (Watch.next op token) { world := w }

theorem watch_concat (w : World) (op : Nat) (token : Token) (xs : List Happening) (x : Happening) :
    w.watch op token (xs ++ [x]) = (w.watch op token xs).next op token x := List.foldl_concat ..

@[simp] theorem watch_world (w : World) (op : Nat) (token : Token) (xs : List Happening) :
    (w.watch op token xs).world = w.unfold xs := by
  induction xs using List.reverseRecOn with
  | nil => rfl
  | append_singleton xs x ih =>
    rw [watch_concat, unfold_concat, ← ih]
    rfl

end World

/-- The tasks of the calls. -/
def Flight.tasks (f : Flight) : List Nat := f.calls.map Prod.snd

namespace Watch

variable {g : Watch} {op : Nat} {o : Operation} {f : Flight} {x : Happening} {token : Token}

/-- What is noted is true of the world, and nobody but the tasks themselves and time makes a call ready again. -/
structure Faithful (g : Watch) (token : Token) (f : Flight) : Prop where
  sound : g.world.Sound
  spares : ∀ task ∈ f.tasks, g.world.Spares task
  tokens : ∀ t ∈ g.world.clock.tasks, t.id ∈ f.tasks → t.token = token
  fired : g.fired.isSome = g.world.isCancelled token
  firedBy : ∀ m, g.fired = some m → m ≤ g.moment
  answered : ∀ task ∈ f.tasks, (g.answer task).map Prod.snd = (g.world.clock.course task).map Prod.snd
  answeredBy : ∀ task y, g.answer task = some y → y.1 ≤ g.moment
  /-- Before the token is cancelled calls are answered before the fan-out looks. -/
  early : g.fired = none → ∀ task ∈ f.tasks, g.answer task = (g.world.clock.course task).retimed (2 * ·)
  idle : g.looked = true → g.fired = none → ∀ t ∈ g.world.clock.tasks, t.id ∈ f.tasks → g.world.clock.isReady t = false

theorem next_world : (g.next op token x).world = g.world.happen x := rfl

theorem next_fired : (g.next op token x).fired =
    g.fired.or (if (g.next op token x).world.isCancelled token then some (g.next op token x).moment else none) := rfl

theorem next_answer (task : Nat) : (g.next op token x).answer task =
    (g.answer task).or (((g.next op token x).world.clock.course task).map fun y => ((g.next op token x).moment, y.2)) := rfl

theorem next_looked : (g.next op token x).looked =
    ((g.next op token x).world.now == g.world.now && (g.looked || looks op g.world x)) := rfl

/-! ### Moments go on -/

theorem now_le (g : Watch) (op : Nat) (token : Token) (x : Happening) : g.world.now ≤ (g.next op token x).world.now :=
  (World.happen_goes g.world x).now_le

theorem moment_of_now (h : (g.next op token x).world.now = g.world.now) (hx : looks op g.world x = false) :
    (g.next op token x).moment = g.moment := by
  unfold moment
  rw [next_looked, h, hx, Bool.or_false, beq_self_eq_true, Bool.true_and]

theorem moment_le (g : Watch) (op : Nat) (token : Token) (x : Happening) : g.moment ≤ (g.next op token x).moment := by
  have hbool : ∀ b : Bool, b.toNat ≤ 1 := fun b => by cases b <;> decide
  have hle := g.now_le op token x
  unfold moment
  by_cases hnow : (g.next op token x).world.now = g.world.now
  · rw [next_looked, hnow, beq_self_eq_true, Bool.true_and]
    refine Nat.add_le_add_left ?_ _
    cases g.looked <;> simp
  · have hlt := Nat.lt_of_le_of_ne hle (Ne.symm hnow)
    have hone := hbool g.looked
    omega

/-- What was noted before a moment is noted as it was. -/
theorem next_upTo {t : Nat} (ht : t < (g.next op token x).moment) :
    (g.next op token x).fired.filter (· ≤ t) = g.fired.filter (· ≤ t) ∧
      ∀ task, ((g.next op token x).answer task).upTo t = (g.answer task).upTo t := by
  have hnew : ¬ (g.next op token x).moment ≤ t := Nat.not_le_of_lt ht
  refine ⟨?_, fun task => ?_⟩
  · rw [next_fired]
    cases g.fired with
    | some m => rfl
    | none =>
      rw [Option.none_or]
      split
      · simp [Option.filter, hnew]
      · rfl
  · rw [next_answer]
    cases g.answer task with
    | some y => rfl
    | none =>
      rw [Option.none_or]
      cases (g.next op token x).world.clock.course task with
      | none => rfl
      | some y => simp [Course.upTo, Option.filter, hnew]

/-- What is decided by what is noted before a moment. -/
theorem closedForm_congr {answer answer' : Nat → Course} (hne : f.calls ≠ []) {t : Nat}
    (h : ∀ task ∈ f.tasks, (answer' task).upTo t = (answer task).upTo t) :
    (FanOut.closedForm f.kind f.policy (FanOut.coursesOf f.calls answer')).filter (·.1 ≤ t) =
      (FanOut.closedForm f.kind f.policy (FanOut.coursesOf f.calls answer)).filter (·.1 ≤ t) := by
  have hcourses : ∀ answer, FanOut.coursesOf f.calls answer ≠ [] := fun _ h => hne (List.map_eq_nil_iff.mp h)
  rw [← FanOut.closedForm_known (hcourses answer), ← FanOut.closedForm_known (hcourses answer')]
  unfold FanOut.known FanOut.coursesOf
  rw [List.map_map, List.map_map, List.map_congr_left]
  intro call hcall
  exact congrArg (Prod.mk call.1) (h call.2 (List.mem_map_of_mem hcall))

/-! ### What is noted stays true -/

/-- What a happening makes known of a call is known of one that had its turn now. -/
theorem course_new {w v : World} {task : Nat} {y : Tick × Ending} (hgoes : World.Goes w x v)
    (hnone : w.clock.course task = none) (hy : v.clock.course task = some y) :
    x = .turn ∧ v.now = w.now ∧ y.1 = w.now ∧ ∃ t ∈ w.clock.tasks, t.id = task ∧ w.clock.isReady t = true := by
  cases hgoes with
  | works stopped works _ _ =>
    rw [Clockwork.course_eq works.clock.ended, hnone] at hy
    cases hy
  | turn step =>
    obtain ⟨t, hmem, hready, turn⟩ := Clockwork.turn_of_step step
    obtain ⟨hid, htick⟩ := turn.course (hnone : (w.clock.without t).course task = none) hy
    exact ⟨rfl, turn.now, htick, t, hmem, hid.symm, hready⟩
  | pass _ _ _ _ =>
    have hy : w.clock.course task = some y := hy
    rw [hnone] at hy
    cases hy

/-- The tasks of the calls were there before. -/
theorem Faithful.task_before (h : g.Faithful token f) {t : Task} (ht : t ∈ (g.world.happen x).clock.tasks)
    (hid : t.id ∈ f.tasks) : ∃ t' ∈ g.world.clock.tasks, t'.id = t.id ∧ t'.token = t.token ∧
      (t' = t ∨ x = .turn ∧ g.world.clock.isReady t' = true) :=
  (World.happen_goes g.world x).task_before ht (h.spares t.id hid)

theorem Faithful.fired_next (h : g.Faithful token f) :
    (g.next op token x).fired.isSome = (g.next op token x).world.isCancelled token := by
  rw [next_fired, Option.isSome_or, h.fired]
  cases hc : g.world.isCancelled token with
  | true =>
    rw [next_world, (World.happen_goes g.world x).grows.2 token hc]
    rfl
  | false => cases (g.next op token x).world.isCancelled token <;> rfl

theorem Faithful.answered_next (h : g.Faithful token f) {task : Nat} (htask : task ∈ f.tasks) :
    ((g.next op token x).answer task).map Prod.snd =
      ((g.next op token x).world.clock.course task).map Prod.snd := by
  have hanswered := h.answered task htask
  obtain ⟨more, hmore⟩ := (World.happen_goes g.world x).grows.1
  rw [next_answer]
  cases ha : g.answer task with
  | none =>
    rw [Option.none_or, Option.map_map]
    rfl
  | some y =>
    rw [ha, Option.map_some, eq_comm, Option.map_eq_some_iff] at hanswered
    obtain ⟨z, hz, hsnd⟩ := hanswered
    rw [Option.some_or, next_world, Clockwork.course_append hmore hz, Option.map_some, Option.map_some, hsnd]

/-- As long as the token is not cancelled, a call is answered only before the fan-out looks at the tick. -/
theorem Faithful.early_next (h : g.Faithful token f) (hfired : (g.next op token x).fired = none) {task : Nat}
    (htask : task ∈ f.tasks) :
    (g.next op token x).answer task = ((g.next op token x).world.clock.course task).retimed (2 * ·) := by
  have hunfired : g.fired = none := (Option.or_eq_none_iff.mp (next_fired ▸ hfired)).1
  have hearly := h.early hunfired task htask
  obtain ⟨more, hmore⟩ := (World.happen_goes g.world x).grows.1
  rw [next_answer, hearly]
  cases hold : g.world.clock.course task with
  | some y =>
    rw [next_world, Clockwork.course_append hmore hold]
    rfl
  | none =>
    rw [Course.retimed, Option.map_none, Option.none_or]
    cases hnew : (g.next op token x).world.clock.course task with
    | none => rfl
    | some y =>
      obtain ⟨rfl, hnow, htick, t, hmem, hid, hready⟩ := course_new (World.happen_goes _ _) hold hnew
      have hlooked : g.looked = false := by
        by_contra hl
        rw [h.idle (Bool.not_eq_false _ ▸ hl) hunfired t hmem (hid ▸ htask)] at hready
        cases hready
      have hmoment : (g.next op token .turn).moment = 2 * y.1 := by
        rw [moment_of_now hnow rfl, moment, hlooked, htick]
        rfl
      rw [hmoment]
      rfl

/-- As long as the token is not cancelled, no call can go on once the fan-out has looked at the tick. -/
theorem Faithful.idle_next (h : g.Faithful token f) (hlooked : (g.next op token x).looked = true)
    (hfired : (g.next op token x).fired = none) {t : Task} (ht : t ∈ (g.next op token x).world.clock.tasks)
    (hid : t.id ∈ f.tasks) : (g.next op token x).world.clock.isReady t = false := by
  have hunfired : g.fired = none := (Option.or_eq_none_iff.mp (next_fired ▸ hfired)).1
  rw [next_looked, Bool.and_eq_true, Bool.or_eq_true, beq_iff_eq] at hlooked
  obtain ⟨hnow, hlooked⟩ := hlooked
  obtain ⟨t', hmem, hid', htoken, hsame⟩ := h.task_before ht hid
  have hbefore : g.world.clock.isReady t' = false := by
    rcases hlooked with hlooked | hlooks
    · exact h.idle hlooked hunfired t' hmem (hid'.symm ▸ hid)
    · unfold looks at hlooks
      split at hlooks
      · rw [Bool.and_eq_true, Option.isNone_iff_eq_none] at hlooks
        exact Clockwork.step_eq_none.mp hlooks.2 t' hmem
      · cases hlooks
  rcases hsame with rfl | ⟨-, hready⟩
  · have hcancelled : ∀ {g' : Watch}, g'.fired.isSome = g'.world.isCancelled token → g'.fired = none →
        g'.world.clock.isCancelled t'.token = false := by
      intro g' hg' hnone
      rw [h.tokens t' hmem hid]
      show g'.world.isCancelled token = false
      rw [← hg', hnone]
      rfl
    rw [Clockwork.isReady_eq hnow, hbefore]
    rw [hcancelled h.fired_next hfired, hcancelled h.fired hunfired]
  · rw [hbefore] at hready
    cases hready

/-- **Whatever happens**, what is noted is true. -/
theorem Faithful.next (h : g.Faithful token f) (op : Nat) (x : Happening) : (g.next op token x).Faithful token f where
  sound := (World.happen_goes g.world x).sound h.sound
  spares task htask := (World.happen_goes g.world x).spares (h.spares task htask)
  tokens t ht hid := by
    obtain ⟨t', hmem, hid', htoken, -⟩ := h.task_before ht hid
    exact htoken.symm.trans (h.tokens t' hmem (hid'.symm ▸ hid))
  fired := h.fired_next
  firedBy m hm := by
    rw [next_fired, Option.or_eq_some_iff] at hm
    rcases hm with hm | ⟨-, hm⟩
    · exact Nat.le_trans (h.firedBy m hm) (g.moment_le op token x)
    · split at hm
      · cases hm; exact Nat.le_refl _
      · cases hm
  answered _ htask := h.answered_next htask
  answeredBy task y hy := by
    rw [next_answer, Option.or_eq_some_iff] at hy
    rcases hy with hy | ⟨-, hy⟩
    · exact Nat.le_trans (h.answeredBy task y hy) (g.moment_le op token x)
    · obtain ⟨z, -, rfl⟩ := Option.map_eq_some_iff.mp hy
      exact Nat.le_refl _
  early hfired _ htask := h.early_next hfired htask
  idle hlooked hfired _ ht hid := h.idle_next hlooked hfired ht hid

end Watch

end Orchestra
