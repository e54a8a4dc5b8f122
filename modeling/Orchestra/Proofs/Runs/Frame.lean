import Orchestra.Proofs.Accounting.Books
import Orchestra.Proofs.Accounting.Occurrence
import Orchestra.Proofs.Dispatch.Run

/-!
# Orchestra.Proofs.Runs.Frame — what an occurrence leaves alone

Whatever occurs to a service, other than the clock going on by itself, treats the clock in one way: it may cancel sources
now, give new tasks the next numbers, and stop the task of an operation that is aborted while its workspace is being looked
up (`Tended`).  It works on one operation at most, and of the tasks that others wait for it touches none (`Works`).  What a
success is to the caller stays the same (`after_handed`).
-/

namespace Orchestra

namespace Clockwork

/-- Tasks were added under the next numbers and sources were cancelled now; of the other tasks at most one was stopped. -/
structure Tended (stopped : Option Nat) (c c' : Clockwork) : Prop where
  now : c'.now = c.now
  ended : c'.ended = c.ended
  cancelled : ∃ more, c'.cancelled = c.cancelled ++ more ∧ ∀ x ∈ more, x.2 = c.now
  tasks : ∃ new, c'.tasks = c.tasks.filter (fun t => stopped != some t.id) ++ new ∧
    new.map Task.id = List.range' c.nextTask new.length ∧ c'.nextTask = c.nextTask + new.length

variable {c c' c'' : Clockwork} {stopped : Option Nat}

theorem filter_not_stopped (ts : List Task) : ts.filter (fun t => (none : Option Nat) != some t.id) = ts :=
  List.filter_eq_self.mpr fun _ _ => rfl

/-- Where tasks stay as they are and none is added. -/
theorem Tended.of_same (hnow : c'.now = c.now) (hended : c'.ended = c.ended)
    (hcancelled : ∃ more, c'.cancelled = c.cancelled ++ more ∧ ∀ x ∈ more, x.2 = c.now) (htasks : c'.tasks = c.tasks)
    (hnext : c'.nextTask = c.nextTask) : Tended none c c' :=
  ⟨hnow, hended, hcancelled, ⟨[], by rw [filter_not_stopped, List.append_nil, htasks], rfl, hnext⟩⟩

theorem Touched.tended (h : Touched c c') : Tended none c c' :=
  .of_same h.now h.ended h.cancelled h.tasks h.nextTask

theorem Tended.refl (c : Clockwork) : Tended none c c := (Touched.refl c).tended

theorem Tended.trans (h : Tended stopped c c') (h' : Tended none c' c'') : Tended stopped c c'' := by
  obtain ⟨xs, hxs, hxs'⟩ := h.cancelled
  obtain ⟨ys, hys, hys'⟩ := h'.cancelled
  obtain ⟨new, hnew, hids, hnext⟩ := h.tasks
  obtain ⟨new', hnew', hids', hnext'⟩ := h'.tasks
  rw [h.now] at hys'
  refine ⟨h'.now.trans h.now, h'.ended.trans h.ended,
    ⟨xs ++ ys, by rw [hys, hxs, List.append_assoc], List.forall_mem_append.mpr ⟨hxs', hys'⟩⟩,
    ⟨new ++ new', ?_, ?_, ?_⟩⟩
  · rw [hnew', filter_not_stopped, hnew, List.append_assoc]
  · rw [List.map_append, hids, hids', hnext, List.length_append, List.range'_append_1]
  · rw [hnext', hnext, List.length_append, Nat.add_assoc]

theorem tended_spawn (c : Clockwork) (token : Token) (start : Start) : Tended none c (c.spawn token start).1 :=
  ⟨rfl, rfl, ⟨[], by simp [spawn], by simp⟩, ⟨_, by rw [filter_not_stopped]; rfl, rfl, rfl⟩⟩

theorem tended_spawnTimer (c : Clockwork) (ticks : Nat) : Tended none c (c.spawnTimer ticks).1 :=
  ⟨rfl, rfl, ⟨[], by simp [spawnTimer], by simp⟩, ⟨_, by rw [filter_not_stopped]; rfl, rfl, rfl⟩⟩

theorem tended_calling (c : Clockwork) (kind : Capability) (payload : Payload) (context : Context) (token : Token)
    (ps : List ProviderRef) : Tended none c (c.calling kind payload context token ps) := by
  refine ⟨rfl, rfl, ⟨[], by simp [calling], by simp⟩, ⟨_, by rw [filter_not_stopped]; rfl, ?_, ?_⟩⟩
  · rw [List.map_map, List.length_map, List.length_zipIdx]
    exact List.zipIdx_map_snd c.nextTask ps
  · rw [List.length_map, List.length_zipIdx]
    rfl

theorem tended_kill (c : Clockwork) (task : Nat) : Tended (some task) c (c.kill task) := by
  refine ⟨rfl, rfl, ⟨[], by simp [kill], by simp⟩, ⟨[], ?_, rfl, rfl⟩⟩
  rw [List.append_nil]
  exact List.filter_congr fun t _ => by simp [bne, Option.some_beq_some, BEq.comm]

end Clockwork

namespace World

open Clockwork (Tended)

/-! ### What is told -/

/-- Something was told or counted: no task, no operation and nothing on the agenda changed, nor what successes are to
callers. -/
structure Told (w v : World) : Prop where
  clock : ∃ journal, v.clock = { w.clock with journal }
  operations : v.operations = w.operations
  agenda : v.agenda = w.agenda
  handed : v.handed = w.handed

variable {u v w : World}

theorem told_of_clock {w v : World} (hclock : v.clock = w.clock) (hoperations : v.operations = w.operations)
    (hagenda : v.agenda = w.agenda) (hhanded : v.handed = w.handed) : Told w v :=
  ⟨⟨w.clock.journal, hclock⟩, hoperations, hagenda, hhanded⟩

theorem Told.refl (w : World) : Told w w := told_of_clock rfl rfl rfl rfl

theorem Told.trans (h : Told w v) (h' : Told v u) : Told w u := by
  obtain ⟨journal, hclock⟩ := h.clock
  obtain ⟨journal', hclock'⟩ := h'.clock
  exact ⟨⟨journal', by rw [hclock', hclock]⟩, h'.operations.trans h.operations, h'.agenda.trans h.agenda,
    h'.handed.trans h.handed⟩

theorem told_log (w : World) (e : Entry) : Told w (w.log e) := ⟨⟨e :: w.clock.journal, rfl⟩, rfl, rfl, rfl⟩

theorem told_announce (w : World) (hook : Hook) : Told w (w.announce hook) := by
  unfold announce
  split
  · exact Told.refl w
  · exact told_of_clock rfl rfl rfl rfl

theorem told_listen (w : World) (stream : Stream) (name : String) (reaction : Option Reaction) :
    Told w (w.listen stream name reaction) := told_of_clock rfl rfl rfl rfl

theorem told_unlisten (w : World) (name : String) : Told w (w.unlisten name) := by
  unfold unlisten
  split
  · exact Told.refl w
  · exact told_of_clock rfl rfl rfl rfl

theorem commit_told {extras : Extras} {fields : Changes} {update : ContextUpdate}
    (h : w.commit extras fields = .ok (v, update)) : Told w v := by
  unfold commit at h
  rcases hc : w.service.context.set extras fields with f | ⟨context, changed⟩
  · rw [hc] at h; cases h
  · rw [hc] at h; cases h; exact told_of_clock rfl rfl rfl rfl

theorem foldl_told {α : Type} {f : World → α → World} (hf : ∀ w a, Told w (f w a)) (as : List α) (w : World) :
    Told w (as.foldl f w) := by
  induction as generalizing w with
  | nil => exact Told.refl w
  | cons a as ih => exact (hf w a).trans (ih (f w a))

theorem told_tellAll (w : World) : Told w w.tellAll :=
  (foldl_told told_log (w.tellings.flatMap (·.seen w.now)) w).trans (told_of_clock rfl rfl rfl rfl)

theorem told_deliver (depth : Nat) (w : World) (e : BusEvent) : Told w (deliver depth w e) := by
  induction depth generalizing w e with
  | zero => exact Told.refl w
  | succ depth ih =>
    rw [deliver]
    refine Told.trans (v := { w with published := w.published ++ [e] }) (told_of_clock rfl rfl rfl rfl)
      (foldl_told (fun w l => ?_) _ _)
    have hlog := told_log w (.event l.name e)
    dsimp only
    split
    · exact hlog
    · exact hlog
    · next another withdrawn language _ =>
      -- listeners come and go, and then perhaps the language is set, which others are told of in turn
      have hupdate : ∀ {v v' : World} {update : ContextUpdate} {changes : Changes},
          v.commit .nothing changes = .ok (v', update) → Told w v →
          Told w ((deliver depth v' (.context update)).announce (.contextChanged update)) :=
        fun hcommit hv => ((hv.trans (commit_told hcommit)).trans (ih _ _)).trans (told_announce _ _)
      have hlisten : ∀ stream name, Told w ((w.log (.event l.name e)).listen stream name none) :=
        fun stream name => hlog.trans (told_listen _ stream name none)
      rcases another with _ | ⟨stream, name⟩ <;> rcases withdrawn with _ | withdrawn <;> rcases language with _ | s
      all_goals dsimp only
      all_goals try split
      all_goals first
        | exact hlog
        | exact hlisten _ _
        | exact hlog.trans (told_unlisten _ _)
        | exact (hlisten _ _).trans (told_unlisten _ _)
        | exact hupdate ‹_› hlog
        | exact hupdate ‹_› (hlisten _ _)
        | exact hupdate ‹_› (hlog.trans (told_unlisten _ _))
        | exact hupdate ‹_› ((hlisten _ _).trans (told_unlisten _ _))

theorem told_fire (w : World) (e : BusEvent) : Told w (w.fire e) := told_deliver _ w e

theorem setContext_told {extras : Extras} {fields : Changes} {context : Context}
    (h : w.setContext extras fields = .ok (v, context)) : Told w v := by
  unfold setContext at h
  rcases hc : w.commit extras fields with f | ⟨w', update⟩
  · rw [hc] at h; cases h
  · rw [hc] at h
    cases h
    exact ((commit_told hc).trans (told_fire _ _)).trans (told_announce _ _)

theorem told_countSuccess (w : World) (record : RequestRecord) (r : Result) : Told w (w.countSuccess record r) :=
  have hcounted : Told w { w with service := { w.service with
      successes := w.service.successes + 1, busy := w.service.busy + (w.now - record.startedAt) } } :=
    told_of_clock rfl rfl rfl rfl
  hcounted.trans (told_fire _ _)

theorem told_countFailure (w : World) (record : RequestRecord) (f : Fault) : Told w (w.countFailure record f) :=
  have hcounted : Told w { w with service := { w.service with errors := w.service.errors + 1 } } :=
    told_of_clock rfl rfl rfl rfl
  hcounted.trans (told_fire _ _)

/-! ### What passes an outcome on -/

/-- The outcome of an operation is passed on, to hooks or to the caller: its stage changes, with at most so many left, and
no task is touched. -/
structure Passes (op : Nat) (assistant : Option AssistantRecord) (outcome : Except Fault Result) (bound : Nat)
    (w v : World) : Prop where
  clock : ∃ journal, v.clock = { w.clock with journal }
  stage : ∃ stage, v.operations = w.operations.modify op (fun o => { o with stage }) ∧
    Concluding assistant outcome stage ∧ ∀ o : Operation, ({ o with stage } : Operation).stagesLeft ≤ bound
  agenda : v.agenda = w.agenda
  handed : v.handed = w.handed

variable {op bound : Nat} {assistant : Option AssistantRecord} {outcome : Except Fault Result}

theorem Told.passes (h : Told w v) (h' : Passes op assistant outcome bound v u) : Passes op assistant outcome bound w u := by
  obtain ⟨journal, hclock⟩ := h.clock
  obtain ⟨journal', hclock'⟩ := h'.clock
  obtain ⟨stage, hstage, hbound⟩ := h'.stage
  exact ⟨⟨journal', by rw [hclock', hclock]⟩, ⟨stage, by rw [hstage, h.operations], hbound⟩, h'.agenda.trans h.agenda,
    h'.handed.trans h.handed⟩

theorem Passes.mono {bound' : Nat} (h : Passes op assistant outcome bound w v) (hle : bound ≤ bound') :
    Passes op assistant outcome bound' w v := by
  obtain ⟨stage, hstage, hconcluding, hbound⟩ := h.stage
  exact ⟨h.clock, ⟨stage, hstage, hconcluding, fun o => Nat.le_trans (hbound o) hle⟩, h.agenda, h.handed⟩

theorem passes_complete (w : World) (op : Nat) {answer : Except Fault Answer} (h : answer = answerTo assistant outcome) :
    Passes op assistant outcome 0 w (w.complete op answer) :=
  ⟨⟨w.clock.journal, rfl⟩, ⟨.done answer w.now, rfl, .inr ⟨w.now, by rw [h]⟩, fun _ => Nat.le_refl _⟩, rfl, rfl⟩

theorem passes_conclude (w : World) (op : Nat) (assistant : Option AssistantRecord) (outcome : Except Fault Result) :
    Passes op assistant outcome 0 w (w.conclude op assistant outcome) := by
  obtain ⟨-, h⟩ | ⟨a, rfl, -, h⟩ := w.conclude_cases op assistant outcome
  · rw [h]
    exact passes_complete w op rfl
  · rw [h]
    exact (told_fire _ _).passes (passes_complete _ op rfl)

theorem passes_relay (w : World) (op : Nat) (assistant : Option AssistantRecord) (outcome : Except Fault Result)
    (queue : List Hook) : Passes op assistant outcome queue.length w (w.relay op assistant outcome queue) := by
  induction queue generalizing w with
  | nil => exact passes_conclude w op assistant outcome
  | cons hook rest ih =>
    have hlog := told_log w (.hook hook)
    rw [relay_cons]
    split
    · exact (passes_conclude w op assistant outcome).mono (Nat.zero_le _)
    · split
      · exact (hlog.passes (ih _)).mono (Nat.le_succ _)
      · next hooks _ _ =>
        exact ⟨⟨_, rfl⟩, ⟨.relaying w.told rest outcome, rfl, .inl ⟨w.told, rest, rfl⟩, fun _ => Nat.le_refl _⟩, rfl,
          rfl⟩

/-- At most two hooks are told of an outcome. -/
theorem passes_decide (w : World) (op : Nat) (assistant : Option AssistantRecord) (record : RequestRecord)
    (outcome : Except Fault Result) :
    Passes op assistant (outcome.bind w.handed) 2 w (w.decide op assistant record outcome) := by
  cases outcome with
  | ok r =>
    have hqueue : (w.successHooks record r).length ≤ 2 := by
      unfold successHooks
      split <;> simp
    exact ((told_countSuccess w record r).passes (passes_relay _ op assistant _ _)).mono hqueue
  | error f => exact ((told_countFailure w record f).passes (passes_relay _ op assistant _ _)).mono (by simp)

/-! ### What works on an operation -/

/-- At most one operation was worked on and one task stopped; an operation that looks up its workspace did so before, or
it was worked on and waits for a new task. -/
structure Works (op stopped : Option Nat) (w v : World) : Prop where
  clock : Tended stopped w.clock v.clock
  others : ∀ (i : Nat) (o : Operation), some i ≠ op → w.operations[i]? = some o → v.operations[i]? = some o
  resolving : ∀ (i : Nat) (o : Operation) context ask task,
    v.operations[i]? = some o → o.stage = .resolving context ask task →
    (∃ o', w.operations[i]? = some o' ∧ o'.stage = .resolving context ask task) ∨
      some i = op ∧ w.clock.nextTask ≤ task ∧ task < v.clock.nextTask
  agenda : ∀ d ∈ v.agenda, d ∈ w.agenda
  handed : v.handed = w.handed

variable {at? stopped : Option Nat}

/-- Where operations stay as they are. -/
theorem Works.of_same (hclock : Tended stopped w.clock v.clock) (hoperations : v.operations = w.operations)
    (hagenda : ∀ d ∈ v.agenda, d ∈ w.agenda) (hhanded : v.handed = w.handed) : Works at? stopped w v :=
  ⟨hclock, fun _ _ _ h => hoperations ▸ h, fun _ o _ _ _ h hs => .inl ⟨o, hoperations ▸ h, hs⟩, hagenda, hhanded⟩

theorem Works.refl (w : World) : Works at? none w w := .of_same (.refl _) rfl (fun _ h => h) rfl

theorem Works.trans (h : Works at? stopped w v) (h' : Works at? none v u) : Works at? stopped w u := by
  have hnext : w.clock.nextTask ≤ v.clock.nextTask := by
    obtain ⟨new, -, -, hnext⟩ := h.clock.tasks
    omega
  have hnext' : v.clock.nextTask ≤ u.clock.nextTask := by
    obtain ⟨new, -, -, hnext⟩ := h'.clock.tasks
    omega
  refine ⟨h.clock.trans h'.clock, fun i o hi ho => h'.others i o hi (h.others i o hi ho), ?_,
    fun d hd => h.agenda d (h'.agenda d hd), h'.handed.trans h.handed⟩
  intro i o context ask task ho hs
  obtain ⟨o', ho', hs'⟩ | ⟨hi, hlo, hhi⟩ := h'.resolving i o context ask task ho hs
  · obtain hold | ⟨hi, hlo, hhi⟩ := h.resolving i o' context ask task ho' hs'
    · exact .inl hold
    · exact .inr ⟨hi, hlo, by omega⟩
  · exact .inr ⟨hi, by omega, hhi⟩

theorem Told.works (h : Told w v) : Works at? none w v := by
  obtain ⟨journal, hclock⟩ := h.clock
  refine .of_same ?_ h.operations (fun d hd => h.agenda ▸ hd) h.handed
  rw [hclock]
  exact .of_same rfl rfl ⟨[], by simp, by simp⟩ rfl rfl

/-- Changing one operation, but not to look up a workspace. -/
theorem works_modify (w : World) (op : Nat) {f : Operation → Operation}
    (hf : ∀ o context ask task, (f o).stage = .resolving context ask task → o.stage = .resolving context ask task) :
    Works (some op) none w (w.modifyOperation op f) := by
  refine ⟨.refl _, fun i o hi ho => ?_, fun i o context ask task ho hs => .inl ?_, fun _ hd => hd, rfl⟩
  · have hne : op ≠ i := fun h => hi (congrArg some h.symm)
    show (w.operations.modify op f)[i]? = some o
    rw [List.getElem?_modify_ne _ _ hne, ho]
  · have ho : (w.operations.modify op f)[i]? = some o := ho
    by_cases hne : op = i
    · subst hne
      rw [List.getElem?_modify_eq, Option.map_eq_map, Option.map_eq_some_iff] at ho
      obtain ⟨o', ho', rfl⟩ := ho
      exact ⟨o', ho', hf o' context ask task hs⟩
    · rw [List.getElem?_modify_ne _ _ hne] at ho
      exact ⟨o, ho, hs⟩

theorem works_setStage (w : World) (op : Nat) {stage : Stage}
    (hstage : ∀ context ask task, stage ≠ .resolving context ask task) :
    Works (some op) none w (w.setStage op stage) :=
  works_modify w op fun _ context ask task h => absurd h (hstage context ask task)

theorem Passes.works (h : Passes op assistant outcome bound w v) : Works (some op) none w v := by
  obtain ⟨stage, hoperations, hconcluding, -⟩ := h.stage
  have hstage : ∀ context ask task, stage ≠ .resolving context ask task := by
    rintro context ask task rfl
    rcases hconcluding with ⟨telling, queue, h⟩ | ⟨tick, h⟩ <;> cases h
  obtain ⟨journal, hclock⟩ := h.clock
  have hrest : Told (w.setStage op stage) v := ⟨⟨journal, hclock⟩, hoperations, h.agenda, h.handed⟩
  exact (works_setStage w op hstage).trans hrest.works

theorem works_complete (w : World) (op : Nat) (answer : Except Fault Answer) :
    Works (some op) none w (w.complete op answer) := works_setStage w op fun _ _ _ h => by cases h

theorem works_launched (w : World) (op : Nat) (kind : Capability) (payload : Payload) (context : Context) (token : Token)
    (ps : List ProviderRef) (flight : Flight) :
    Works (some op) none w
      ({ w with clock := w.clock.calling kind payload context token ps }.setStage op (.flying flight)) := by
  have hcalled : Works (some op) none w { w with clock := w.clock.calling kind payload context token ps } :=
    .of_same (Clockwork.tended_calling _ kind payload context token ps) rfl (fun _ hd => hd) rfl
  exact hcalled.trans (works_setStage _ op fun _ _ _ h => by cases h)

theorem works_request (w : World) (op : Nat) (assistant : Option AssistantRecord) (token : Token) (operation : String)
    (kind : Capability) (payload : Payload) (context : Option Context) :
    Works (some op) none w (w.request op assistant token operation kind payload context) := by
  have htold : Told w (w.newRequest operation kind).1 := told_of_clock rfl rfl rfl rfl
  have hasked : Works (some op) none w (w.asked op operation kind) :=
    htold.works.trans (works_modify _ op fun _ _ _ _ h => h)
  refine hasked.trans ?_
  cases h : FanOut.invited w.service.ledger.registry kind (w.isCancelled token) with
  | error f =>
    rw [request_refused h]
    exact (passes_decide _ op assistant _ _).works
  | ok ps =>
    rw [request_launched h]
    exact works_launched (w.asked op operation kind) op kind payload _ token ps _

theorem works_send (w : World) (op : Nat) (assistant : Option AssistantRecord) (token : Token) (context : Context)
    (ask : Ask) : Works (some op) none w (w.send op assistant token context ask) := by
  cases ask with
  | context => exact works_complete w op _
  | chat message => exact works_request w op assistant token _ _ _ _
  | edit path range instruction options => exact works_request w op assistant token _ _ _ _

theorem works_prepare (w : World) (op : Nat) (assistant : Option AssistantRecord) (token : Token) (extras : Extras)
    (ask : Ask) : Works (some op) none w (w.prepare op assistant token extras ask) := by
  obtain ⟨f, -, h⟩ | ⟨context, reply, -, h⟩ | ⟨context, h⟩ := w.prepare_cases op assistant token extras ask
  · rw [h]
    exact (passes_conclude w op assistant _).works
  · -- the operation waits for the new task
    rw [h]
    refine ⟨Clockwork.tended_spawn w.clock .none (.resolve reply), fun i o hi ho => ?_,
      fun i o context' ask' task ho hs => ?_, fun _ hd => hd, rfl⟩
    · have hne : op ≠ i := fun h => hi (congrArg some h.symm)
      show (w.operations.modify op _)[i]? = some o
      rw [List.getElem?_modify_ne _ _ hne, ho]
    · have ho : (w.operations.modify op fun o =>
          { o with stage := .resolving context ask w.clock.nextTask })[i]? = some o := ho
      by_cases hne : op = i
      · subst hne
        rw [List.getElem?_modify_eq, Option.map_eq_map, Option.map_eq_some_iff] at ho
        obtain ⟨o', -, rfl⟩ := ho
        cases hs
        exact .inr ⟨rfl, Nat.le_refl _, Nat.lt_succ_self _⟩
      · rw [List.getElem?_modify_ne _ _ hne] at ho
        exact .inl ⟨o, ho, hs⟩
  · rw [h]
    exact works_send w op assistant token _ ask

/-- An operation more, which waits for nothing yet. -/
theorem works_append {o : Operation} (hops : v.operations = w.operations ++ [o]) (hclock : v.clock = w.clock)
    (hagenda : v.agenda = w.agenda) (hhanded : v.handed = w.handed)
    (hstage : ∀ context ask task, o.stage ≠ .resolving context ask task) :
    Works (some w.operations.length) none w v := by
  refine ⟨hclock ▸ .refl _, fun i o' _ ho => ?_, fun i o' context ask task ho hs => .inl ?_,
    fun d hd => hagenda ▸ hd, hhanded⟩
  · rw [hops]
    exact (List.getElem?_append_left (List.getElem?_eq_some_iff.mp ho).1).trans ho
  · rw [hops] at ho
    rcases Nat.lt_or_ge i w.operations.length with hi | hi
    · rw [List.getElem?_append_left hi] at ho
      exact ⟨o', ho, hs⟩
    · rw [List.getElem?_append_right hi] at ho
      rw [List.mem_singleton.mp (List.mem_of_getElem? ho)] at hs
      exact absurd hs (hstage context ask task)

theorem works_begin (w : World) (order : Order) (token : Token) :
    Works (some w.operations.length) none w (w.begin order token).1 := by
  have hentered : Works (some w.operations.length) none w (w.entered token) :=
    works_append rfl rfl rfl rfl fun _ _ _ h => by cases h
  cases order with
  | bare kind payload context =>
    refine hentered.trans ?_
    cases h : FanOut.invited w.service.ledger.registry kind (w.isCancelled token) with
    | error f =>
      rw [begin_bare_refused h]
      exact works_complete _ _ _
    | ok ps =>
      rw [begin_bare_launched h]
      exact works_launched (w.entered token) _ kind payload context token ps _
  | service operation kind payload context =>
    exact hentered.trans (works_request _ _ none token operation kind payload context)
  | assistant a =>
    have hassigned : Works (some w.operations.length) none w (w.assigned token a) :=
      works_append rfl rfl rfl rfl fun _ _ _ h => by cases h
    rw [begin_assistant]
    exact hassigned.trans (works_prepare _ _ _ token a.extras a.ask)
  | context extras => exact hentered.trans (works_prepare _ _ none token extras .context)

theorem works_resume {o : Operation} (h : w.resume op o = some v) : Works (some op) none w v := by
  cases resume_resumes h with
  | cutShort _ _ => exact (passes_conclude w op _ _).works
  | sends _ => exact works_send w op _ _ _ _
  | lands _ _ _ => exact works_complete w op _
  | decides _ _ _ => exact (passes_decide w op _ _ _).works
  | relays _ => exact (passes_relay w op _ _ _).works

/-- Aborting an operation stops no task but the one that looks up its workspace. -/
theorem works_abort (w : World) (op : Nat) :
    ∃ stopped, Works (some op) stopped w (w.abort op) ∧ ∀ task, stopped = some task →
      ∃ o context ask, w.operations[op]? = some o ∧ o.stage = .resolving context ask task := by
  have hnone : ∀ {v : World}, Works (some op) none w v → ∃ stopped, Works (some op) stopped w v ∧
      ∀ task, stopped = some task → ∃ o context ask, w.operations[op]? = some o ∧ o.stage = .resolving context ask task :=
    fun h => ⟨none, h, nofun⟩
  have habort := w.abort_aborts op
  generalize w.abort op = v at habort ⊢
  cases habort with
  | idle _ => exact hnone (Works.refl w)
  | @resolving o context ask task there stage =>
    refine ⟨some task, ?_, fun task' h => ⟨o, context, ask, there, by rw [stage, Option.some.inj h]⟩⟩
    exact (Works.of_same (v := { w with clock := w.clock.kill task }) (Clockwork.tended_kill _ _) rfl
      (fun _ hd => hd) rfl).trans (passes_conclude _ op _ _).works
  | flying _ _ _ => exact hnone (works_complete w op _)
  | requesting _ _ _ =>
    exact hnone (((told_countFailure w _ _).trans (told_announce _ _)).works.trans (passes_conclude _ op _ _).works)
  | @relaying o telling queue outcome _ _ =>
    have hhushed : Told w (w.hush telling) := told_of_clock rfl rfl rfl rfl
    exact hnone (hhushed.works.trans (passes_conclude _ op _ _).works)

theorem works_withLedger {clock : Clockwork} {ledger : Ledger ServiceCallback} {owned : List Nat}
    (h : w.clock.Touched clock) : Works at? none w { w.withLedger ledger owned with clock } :=
  .of_same h.tended rfl (fun _ hd => hd) rfl

theorem works_dispose (w : World) (handle : Nat) : Works at? none w (w.dispose handle).1 := by
  obtain ⟨clock, ledger, owned, h, touched⟩ := dispose_eq w handle
  rw [h]
  exact works_withLedger touched

theorem works_doDeed (w : World) (d : Deed) : Works at? none w (w.doDeed d) := by
  obtain ⟨clock, ledger, owned, h, touched⟩ := doDeed_eq w d
  rw [h]
  exact works_withLedger touched

theorem works_doDue (w : World) : Works at? none w w.doDue := by
  obtain ⟨clock, ledger, owned, h, touched⟩ := doDue_eq w
  rw [h]
  exact .of_same touched.tended rfl (fun _ hd => List.mem_of_mem_filter hd) rfl

theorem works_register {p : ProviderRef} {kinds : Option (List Capability)} {handle : Nat}
    (h : w.register p kinds = .ok (v, handle)) : Works at? none w v := by
  obtain ⟨ledger, -, rfl⟩ := register_eq h
  exact works_withLedger (.refl _)

theorem works_close (w : World) : Works at? none w w.close.1 := by
  obtain ⟨clock, ledger, owned, tellings, h, touched, -⟩ := close_eq w
  rw [h]
  exact .of_same touched.tended rfl (fun _ hd => hd) rfl

/-- The operation that an occurrence works on. -/
def worksOn (w : World) : Occurrence → Option Nat
  | .begin _ _ => some w.operations.length
  | .resume op | .abort op => some op
  | _ => none

/-- **Whatever occurs**, but for what the clock does by itself, works on one operation at most, and stops no task but one
that looks up a workspace. -/
theorem occur_works (w : World) (x : Occurrence) (hx : ∀ c, x ≠ .clock c) :
    ∃ stopped, Works (w.worksOn x) stopped w (w.occur x) ∧ ∀ task, stopped = some task →
      ∃ op o context ask, x = .abort op ∧ w.operations[op]? = some o ∧ o.stage = .resolving context ask task := by
  have hnone : ∀ {v : World}, Works (w.worksOn x) none w v → ∃ stopped, Works (w.worksOn x) stopped w v ∧
      ∀ task, stopped = some task →
        ∃ op o context ask, x = .abort op ∧ w.operations[op]? = some o ∧ o.stage = .resolving context ask task :=
    fun h => ⟨none, h, nofun⟩
  cases x with
  | begin order token => exact hnone (works_begin w order token)
  | resume op =>
    refine hnone ?_
    simp only [occur, worksOn]
    cases ho : w.operations[op]? with
    | none => exact Works.refl w
    | some o =>
      rw [Option.bind_some]
      cases hr : w.resume op o with
      | none => exact Works.refl w
      | some v => exact works_resume hr
  | abort op =>
    obtain ⟨stopped, hworks, hstopped⟩ := works_abort w op
    refine ⟨stopped, hworks, fun task h => ?_⟩
    obtain ⟨o, context, ask, ho, hs⟩ := hstopped task h
    exact ⟨op, o, context, ask, rfl, ho, hs⟩
  | clock c => exact absurd rfl (hx c)
  | tell => exact hnone (told_tellAll w).works
  | due => exact hnone (works_doDue w)
  | deed d => exact hnone (works_doDeed w d)
  | register p kinds =>
    refine hnone ?_
    simp only [occur]
    split
    · exact Works.refl w
    · next h => exact works_register h
  | dispose handle => exact hnone (works_dispose w handle)
  | onDispose handle callback =>
    have htold : Told w (w.onDispose handle callback) := told_of_clock rfl rfl rfl rfl
    exact hnone htold.works
  | listen stream name reaction => exact hnone (told_listen w stream name reaction).works
  | unlisten name => exact hnone (told_unlisten w name).works
  | setContext extras fields =>
    refine hnone ?_
    simp only [occur]
    split
    · exact Works.refl w
    · next h => exact (setContext_told h).works
  | commit extras fields =>
    refine hnone ?_
    simp only [occur]
    split
    · exact Works.refl w
    · next h => exact (commit_told h).works
  | clearContext =>
    have htold : Told w w.clearContext := told_of_clock rfl rfl rfl rfl
    exact hnone htold.works
  | close => exact hnone (works_close w)

/-- **What a success is to the caller** never changes. -/
theorem occur_handed (w : World) (x : Occurrence) : (w.occur x).handed = w.handed := by
  by_cases hx : ∃ c, x = .clock c
  · obtain ⟨c, rfl⟩ := hx
    rfl
  · obtain ⟨stopped, hworks, -⟩ := occur_works w x fun c h => hx ⟨c, h⟩
    exact hworks.handed

theorem after_handed (w : World) (occs : List Occurrence) : (w.after occs).handed = w.handed := by
  induction occs generalizing w with
  | nil => rfl
  | cons x occs ih => exact (ih (w.occur x)).trans (occur_handed w x)

end World

end Orchestra
