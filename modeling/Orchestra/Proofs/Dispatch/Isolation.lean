import Orchestra.Proofs.Dispatch.Invocation
import Orchestra.Proofs.Dispatch.Verdict

/-!
# Orchestra.Proofs.Dispatch.Isolation — a running fan-out depends on nothing but its providers and its token

Everything that a fan-out needs it takes when it starts: whom to call, and with what.  What it then ends with is decided by
the answers to its calls and by its token.  So two ways in which things may go on after the start, with whatever others do
in between, come to the same for it, as far as its providers answer alike and its token is cancelled at the same moment
(`occur_isolated`).
-/

namespace Orchestra

namespace Watch

variable {g g' : Watch} {f : Flight} {tasks : List Nat} {outcome outcome' : Except Fault Result}

/-- As far as both have gone, the token was cancelled at the same moment, and these calls were answered alike. -/
structure Agrees (g g' : Watch) (tasks : List Nat) : Prop where
  fired : ∀ m, m ≤ g.moment → m ≤ g'.moment → (g.fired = some m ↔ g'.fired = some m)
  answer : ∀ task ∈ tasks, ∀ m y, m ≤ g.moment → m ≤ g'.moment →
    (g.answer task = some (m, y) ↔ g'.answer task = some (m, y))

theorem Agrees.symm (h : g.Agrees g' tasks) : g'.Agrees g tasks :=
  ⟨fun m hm hm' => (h.fired m hm' hm).symm, fun task htask m y hm hm' => (h.answer task htask m y hm' hm).symm⟩

theorem Agrees.of_eq (hfired : g.fired = g'.fired) (hanswer : ∀ task ∈ tasks, g.answer task = g'.answer task) :
    g.Agrees g' tasks :=
  ⟨fun m _ _ => by rw [hfired], fun task htask m y _ _ => by rw [hanswer task htask]⟩

/-- What is noted alike decides alike. -/
theorem Agrees.decision (h : g.Agrees g' f.tasks) (hne : f.calls ≠ []) {t : Nat} (ht : t ≤ g.moment)
    (ht' : t ≤ g'.moment) : (g.decision f).filter (·.1 ≤ t) = (g'.decision f).filter (·.1 ≤ t) := by
  have hfired : g.fired.filter (· ≤ t) = g'.fired.filter (· ≤ t) := by
    refine Option.ext fun m => ?_
    rw [Option.filter_eq_some_iff, Option.filter_eq_some_iff]
    refine and_congr_left fun hm => h.fired m ?_ ?_
    · exact Nat.le_trans (of_decide_eq_true hm) ht
    · exact Nat.le_trans (of_decide_eq_true hm) ht'
  have hanswer : ∀ task ∈ f.tasks, (g.answer task).upTo t = (g'.answer task).upTo t := by
    intro task htask
    refine Option.ext fun ⟨m, y⟩ => ?_
    rw [Course.upTo_eq_some, Course.upTo_eq_some]
    exact and_congr_left fun hm => h.answer task htask m y (Nat.le_trans hm ht) (Nat.le_trans hm ht')
  unfold Watch.decision
  rw [FanOut.decision_filter, FanOut.decision_filter, hfired, closedForm_congr hne hanswer]

/-- What is decided where things have not gone further is decided there as well. -/
theorem Agrees.decides (h : g.Agrees g' f.tasks) (hne : f.calls ≠ []) (hle : g.moment ≤ g'.moment)
    (hb : g.Bears f (some outcome)) : ∃ m, g'.decision f = some (m, outcome) := by
  obtain ⟨m, hd, hm⟩ := hb
  have hmoment : m ≤ g.moment := hm.elim Nat.le_of_lt And.left
  have hsame := h.decision hne hmoment (Nat.le_trans hmoment hle)
  rw [hd, Option.filter_some_pos (by simp)] at hsame
  exact ⟨m, (Option.filter_eq_some_iff.mp hsame.symm).1⟩

/-- **Noted alike, ended alike.** -/
theorem Agrees.outcome_eq (h : g.Agrees g' f.tasks) (hne : f.calls ≠ []) (hb : g.Bears f (some outcome))
    (hb' : g'.Bears f (some outcome')) : outcome = outcome' := by
  have hcase : ∀ {g g' : Watch} {outcome outcome' : Except Fault Result}, g.Agrees g' f.tasks → g.moment ≤ g'.moment →
      g.Bears f (some outcome) → g'.Bears f (some outcome') → outcome = outcome' := by
    intro g g' outcome outcome' h hle hb hb'
    obtain ⟨m, hd⟩ := h.decides hne hle hb
    obtain ⟨m', hd', -⟩ := hb'
    rw [hd] at hd'
    exact (Prod.mk.inj (Option.some.inj hd')).2
  rcases Nat.le_total g.moment g'.moment with hle | hle
  · exact hcase h hle hb hb'
  · exact (hcase h.symm hle hb' hb).symm

end Watch

namespace World

variable {v w : World} {b : Brief} {ps : List ProviderRef} {op : Nat} {answer : Except Fault Answer}

/-- What a caller is to get stands, unless the operation is aborted. -/
theorem happen_decided? {x : Happening} (hx : x ≠ .occurs (.abort op)) (h : w.decided? op = some answer) :
    (w.happen x).decided? op = some answer := by
  obtain ⟨o, ho, hd⟩ := Option.bind_eq_some_iff.mp h
  by_cases hwork : w.atWork x = some op
  · obtain rfl := (atWork_eq_some (List.getElem?_eq_some_iff.mp ho).1 hwork).resolve_right hx
    rw [happen]
    split
    · rw [occur, ho, Option.bind_some]
      unfold Operation.decided? at hd
      unfold resume
      split at hd
      · next telling queue outcome hs =>
        simp only [hs, Hooks.all_goesOn, if_true]
        split
        · exact h
        · rw [← hd]
          exact (passes_relay w op o.assistant outcome queue).decided? ho rfl
      · next outcome tick hs =>
        simp only [hs]
        exact h
      · cases hd
    · exact h
  · rw [World.decided?, (happen_goes w x).operation hwork ho, Option.bind_some, hd]

theorem unfold_decided? {xs : List Happening} (hxs : .occurs (.abort op) ∉ xs) (h : w.decided? op = some answer) :
    (w.unfold xs).decided? op = some answer := by
  induction xs using List.reverseRecOn with
  | nil => exact h
  | append_singleton xs x ih =>
    rw [List.mem_append, not_or, List.mem_singleton] at hxs
    rw [unfold_concat]
    exact happen_decided? (Ne.symm hxs.2) (ih hxs.1)

/-- What is noted of a fan-out from its start on is true, and bears out what it ends with. -/
structure Watched (v : World) (b : Brief) (o : Operation) (f : Flight) (xs : List Happening) : Prop where
  faithful : (v.watch b.op b.token xs).Faithful b.token f
  bears : ∃ d, (v.unfold xs).Stands b.op o d ∧ (v.watch b.op b.token xs).Bears f d

/-- The operation of a fan-out that has started, and its calls. -/
structure Aloft (v : World) (b : Brief) (o : Operation) (f : Flight) : Prop where
  stands : v.Stands b.op o none
  stage : o.stage = .flying f
  bare : o.request = none → o.assistant = none
  token : o.token = b.token
  calls : f.calls ≠ []

theorem Started.aloft (h : Started w v b ps) : ∃ o f, v.Aloft b o f ∧ f.tasks = w.tasksFor ps := by
  obtain ⟨o, ho, htoken, hbare, hflying⟩ := h.launched.operation
  refine ⟨o, _, ⟨⟨o.stage, ho, rfl⟩, hflying, hbare, htoken, ?_⟩, List.zipIdx_map_snd _ _⟩
  simpa using (invites_ok h.invites).2.1

/-- When a fan-out has started, nothing has been noted and there is nothing to note. -/
theorem Started.faithful {o : Operation} {f : Flight} (h : Started w v b ps) (ho : v.Aloft b o f)
    (htasks : f.tasks = w.tasksFor ps) : Watched v b o f [] := by
  have hnew : ∀ task ∈ f.tasks, w.clock.nextTask ≤ task := fun task htask =>
    (List.mem_range'_1.mp (htasks ▸ htask)).1
  have hended : v.clock.ended = w.clock.ended := by rw [h.launched.clock]; rfl
  have hcourse : ∀ task ∈ f.tasks, v.clock.course task = none := by
    intro task htask
    rw [Clockwork.course_eq hended, Option.eq_none_iff_forall_ne_some]
    rintro ⟨tick, y⟩ hy
    obtain ⟨e, he, rfl, -⟩ := (Clockwork.course_eq_some h.sound.numbered).mp hy
    exact Nat.not_le_of_lt (h.sound.numbered.issued _ (List.mem_append_right _ (List.mem_map_of_mem he))) (hnew _ htask)
  have hcancelled : v.isCancelled b.token = false := by
    have hsame : v.isCancelled b.token = w.isCancelled b.token := by
      unfold isCancelled
      rw [h.launched.clock]
      rfl
    exact hsame.trans (invites_ok h.invites).2.2
  refine ⟨⟨h.after, fun task htask => h.spares (htasks ▸ htask), fun t ht hid => ?_, hcancelled.symm, nofun,
    fun task htask => ?_, nofun, fun _ task htask => ?_, nofun⟩, none, ho.stands, fun d hd => ?_⟩
  · have ht : t ∈ v.clock.tasks := ht
    rw [h.launched.clock] at ht
    rcases List.mem_append.mp ht with ht | ht
    · exact absurd (hnew _ hid)
        (Nat.not_le_of_lt (h.sound.numbered.issued t.id (List.mem_append_left _ (List.mem_map_of_mem ht))))
    · obtain ⟨y, -, rfl⟩ := List.mem_map.mp ht
      rfl
  · show none = (v.clock.course task).map Prod.snd
    rw [hcourse task htask]
    rfl
  · show none = (v.clock.course task).retimed _
    rw [hcourse task htask]
    rfl
  · have hcs : FanOut.coursesOf f.calls (fun _ => none) ≠ [] := fun hnil => ho.calls (List.map_eq_nil_iff.mp hnil)
    have hclosed : FanOut.closedForm f.kind f.policy (FanOut.coursesOf f.calls fun _ => none) = some d := hd
    obtain ⟨c, hc, y, hy⟩ := FanOut.exists_of_closedForm hcs hclosed
    obtain ⟨call, -, rfl⟩ := List.mem_map.mp hc
    cases hy

/-- **Whatever happens** to a fan-out, other than that it is aborted. -/
theorem Watched.unfold {o : Operation} {f : Flight} (h : Watched v b o f []) (ho : v.Aloft b o f) {xs : List Happening}
    (hxs : .occurs (.abort b.op) ∉ xs) : Watched v b o f xs := by
  induction xs using List.reverseRecOn with
  | nil => exact h
  | append_singleton xs x ih =>
    rw [List.mem_append, not_or, List.mem_singleton] at hxs
    obtain ⟨faithful, d, hstands, hbears⟩ := ih hxs.1
    have hstands : (v.watch b.op b.token xs).world.Stands b.op o d := by
      rw [watch_world]
      exact hstands
    have hnext := hbears.next (ho.token.symm ▸ faithful) hstands ho.stage ho.bare ho.calls (Ne.symm hxs.2)
    rw [ho.token, ← watch_concat, watch_world] at hnext
    exact ⟨watch_concat v b.op b.token xs x ▸ faithful.next b.op x, hnext⟩

/-- A fan-out that was not refused is watched in all its continuations. -/
theorem Started.watched (h : Started w v b ps) : ∃ o f, v.Aloft b o f ∧ f.tasks = w.tasksFor ps ∧
    ∀ xs, .occurs (.abort b.op) ∉ xs → Watched v b o f xs := by
  obtain ⟨o, f, ho, htasks⟩ := h.aloft
  exact ⟨o, f, ho, htasks, fun xs hxs => (h.faithful ho htasks).unfold ho hxs⟩

/-- A fan-out that was refused has ended with the same in all its continuations. -/
theorem refused_decided? {x : Occurrence} {fault : Fault} (hb : w.starts x = some b) (hi : w.invites b = .error fault) :
    ∃ a, ∀ xs, .occurs (.abort b.op) ∉ xs → ((w.occur x).unfold xs).decided? b.op = some a := by
  have hstarts := occur_starts hb
  rw [Starts, hi] at hstarts
  obtain ⟨a, ha⟩ := hstarts
  exact ⟨a, fun xs hxs => unfold_decided? hxs ha⟩

/-- What is noted of two continuations, as far as it is noted alike, comes to the same. -/
theorem Watched.outcome_eq {o : Operation} {f : Flight} {xs ys : List Happening} {a a' : Except Fault Answer}
    (h : Watched v b o f xs) (h' : Watched v b o f ys) (ho : v.Aloft b o f)
    (hagree : (v.watch b.op b.token xs).Agrees (v.watch b.op b.token ys) f.tasks)
    (ha : (v.unfold xs).decided? b.op = some a) (ha' : (v.unfold ys).decided? b.op = some a') : a = a' := by
  obtain ⟨d, hstands, hbears⟩ := h.bears
  obtain ⟨d', hstands', hbears'⟩ := h'.bears
  rw [hstands.decided? ho.stage] at ha
  rw [hstands'.decided? ho.stage] at ha'
  obtain ⟨outcome, rfl, rfl⟩ := Option.map_eq_some_iff.mp ha
  obtain ⟨outcome', rfl, rfl⟩ := Option.map_eq_some_iff.mp ha'
  have hsame : (v.unfold xs).receives o = (v.unfold ys).receives o := by
    rw [receives_congr (v.unfold_handed xs), receives_congr (v.unfold_handed ys)]
  rw [hagree.outcome_eq ho.calls hbears hbears', hsame]

/-- What has ended in one continuation has ended in another that is at rest and has gone as far. -/
theorem Watched.decided? {o : Operation} {f : Flight} {xs ys : List Happening} {a : Except Fault Answer}
    (h : Watched v b o f xs) (h' : Watched v b o f ys) (ho : v.Aloft b o f)
    (hagree : (v.watch b.op b.token xs).Agrees (v.watch b.op b.token ys) f.tasks)
    (hle : (v.watch b.op b.token xs).moment ≤ (v.watch b.op b.token ys).moment)
    (hrest : (v.unfold ys).resumeFirst = none) (ha : (v.unfold xs).decided? b.op = some a) :
    (v.unfold ys).decided? b.op = some a := by
  obtain ⟨d', hstands', hbears'⟩ := h'.bears
  have hdecided : ∃ a', (v.unfold ys).decided? b.op = some a' := by
    rw [hstands'.decided? ho.stage]
    cases d' with
    | some outcome' => exact ⟨_, rfl⟩
    | none =>
      obtain ⟨d, hstands, hbears⟩ := h.bears
      rw [hstands.decided? ho.stage] at ha
      obtain ⟨outcome, rfl, rfl⟩ := Option.map_eq_some_iff.mp ha
      obtain ⟨m, hd⟩ := hagree.decides ho.calls hle hbears
      have hworld : (v.watch b.op b.token ys).world = v.unfold ys := watch_world v b.op b.token ys
      rw [← hworld] at hstands' hrest
      have hnone := hbears'.rest (ho.token.symm ▸ h'.faithful) hstands' ho.stage hrest
      rw [hd] at hnone
      cases hnone
  obtain ⟨a', ha'⟩ := hdecided
  rw [ha', h.outcome_eq h' ho hagree ha ha']

/-- **A running fan-out is isolated.**  Take any world that has arisen, any occurrence that starts a fan-out in it, and any
two continuations in which the fan-out is not aborted and which, as far as both have gone, cancel its token at the same
moment and answer its calls alike.  Its calls are the same in every continuation: those to the providers listed at the
start, with the payload and context of the start, and where no task can run all of them have been made.  It ends in both
with the same, and what it has ended with in one, it has ended with in the other once that is at rest and has gone as far.
The context is the one given, if any, that of the request for an edit, and otherwise the current one at the start. -/
theorem occur_isolated {x : Occurrence} {xs ys : List Happening} (ha : w.Arises) (hb : w.starts x = some b)
    (hxs : .occurs (.abort b.op) ∉ xs) (hys : .occurs (.abort b.op) ∉ ys)
    (hagree : ∀ ps, w.invites b = .ok ps →
      ((w.occur x).watch b.op b.token xs).Agrees ((w.occur x).watch b.op b.token ys) (w.tasksFor ps)) :
    (∀ ps, w.invites b = .ok ps → ps = w.service.ledger.registry.providersFor b.kind ∧ ∀ zs,
      ((w.occur x).calls zs).filter (·.task ∈ w.tasksFor ps) <+: b.calls w.clock.nextTask w.now ps ∧
      (((w.occur x).unfold zs).clock.step = none →
        ((w.occur x).calls zs).filter (·.task ∈ w.tasksFor ps) = b.calls w.clock.nextTask w.now ps)) ∧
    (∀ a a', ((w.occur x).unfold xs).decided? b.op = some a → ((w.occur x).unfold ys).decided? b.op = some a' → a = a') ∧
    (∀ a, ((w.occur x).unfold xs).decided? b.op = some a →
      ((w.occur x).watch b.op b.token xs).moment ≤ ((w.occur x).watch b.op b.token ys).moment →
      ((w.occur x).unfold ys).resumeFirst = none → ((w.occur x).unfold ys).decided? b.op = some a) ∧
    (∀ operation kind payload context token, x = .begin (.service operation kind payload context) token →
      b.payload = payload ∧ b.context = context.getD w.service.context.current) ∧
    ∀ request token, x = .begin (.codeEdit request) token → b.payload = .edit request ∧ b.context = request.context := by
  refine ⟨fun ps hi => ⟨(invites_ok hi).1, fun zs => ?_⟩, ?_, ?_, ?_, ?_⟩
  · have started : Started w (w.occur x) b ps := ⟨ha.sound, ⟨x, hb, rfl⟩, hi⟩
    obtain ⟨hmade, -⟩ := started.calls zs
    exact ⟨⟨_, hmade⟩, fun hstep => by rw [← hmade, Clockwork.toCall_of_step hstep, List.append_nil]⟩
  · intro a a' hdecided hdecided'
    cases hi : w.invites b with
    | ok ps =>
      obtain ⟨o, f, ho, htasks, hwatched⟩ := Started.watched ⟨ha.sound, ⟨x, hb, rfl⟩, hi⟩
      exact (hwatched xs hxs).outcome_eq (hwatched ys hys) ho (htasks ▸ hagree ps hi) hdecided hdecided'
    | error fault =>
      obtain ⟨answer, hanswer⟩ := refused_decided? hb hi
      rw [hanswer xs hxs] at hdecided
      rw [hanswer ys hys] at hdecided'
      exact (Option.some.inj hdecided).symm.trans (Option.some.inj hdecided')
  · intro a hdecided hle hrest
    cases hi : w.invites b with
    | ok ps =>
      obtain ⟨o, f, ho, htasks, hwatched⟩ := Started.watched ⟨ha.sound, ⟨x, hb, rfl⟩, hi⟩
      exact (hwatched xs hxs).decided? (hwatched ys hys) ho (htasks ▸ hagree ps hi) hle hrest hdecided
    | error fault =>
      obtain ⟨answer, hanswer⟩ := refused_decided? hb hi
      rw [hanswer xs hxs] at hdecided
      exact (hanswer ys hys).trans hdecided
  · rintro operation kind payload context token rfl
    cases hb
    exact ⟨rfl, rfl⟩
  · rintro request token rfl
    cases hb
    exact ⟨rfl, rfl⟩

/-- The provider answers in its time and is waited for. -/
def calm : List Happening := [.turn, .pass 2, .turn, .occurs (.resume 0)]

/-- Meanwhile another provider is registered, the context is set and cleared, and the service is closed. -/
def turmoil : List Happening := [
  .occurs (.register ⟨0, "rash", [.chat]⟩ none),
  .turn,
  .occurs (.setContext .nothing [.language (some "py")]),
  .occurs (.dispose 0),
  .occurs .clearContext,
  .occurs .close,
  .pass 2, .turn, .occurs (.resume 0)]

theorem occur_isolated_turmoil :
    ∃ v w u, hasty.world = .ok v ∧ w = v.unfold [.occurs (.register ⟨1, "slow", [.chat]⟩ none)] ∧
      u = w.occur (.begin (.service "ask" .chat (.text "hello") none) (.source "stop")) ∧
      (∃ answer, (u.unfold calm).decided? 0 = some answer ∧ (u.unfold turmoil).decided? 0 = some answer) ∧
      ((u.calls turmoil).filter (·.task ∈ [0])).map (fun call => (call.provider, call.tick)) = [(1, 0)] ∧
      (u.unfold turmoil).service.ledger.registry.providersFor .chat = [] := by
  refine ⟨_, _, _, rfl, rfl, rfl, ?_⟩
  obtain ⟨hcalls, -, hends, -, -⟩ := occur_isolated (w := World.unfold _ [.occurs (.register ⟨1, "slow", [.chat]⟩ none)])
    (x := .begin (.service "ask" .chat (.text "hello") none) (.source "stop")) ⟨hasty, _, rfl, _, rfl⟩ rfl
    (show .occurs (.abort 0) ∉ calm by simp [calm]) (show .occurs (.abort 0) ∉ turmoil by simp [turmoil])
    fun ps hi => by
      cases hi
      refine .of_eq (Eq.trans (b := none) rfl rfl) fun task htask => ?_
      cases List.mem_singleton.mp htask
      exact Eq.trans (b := some (4, .ok (.emptyFor .chat))) rfl rfl
  exact ⟨⟨_, rfl, hends _ rfl (by decide) rfl⟩, congrArg (List.map _) (((hcalls _ rfl).2 turmoil).2 rfl), rfl⟩

end World

end Orchestra
