import Orchestra.Proofs.Dispatch.Waiting

/-!
# Orchestra.Proofs.Dispatch.Undertaking — what an operation sets going

What an operation sets going shows whenever it is worked on, and then only (`World.during`).  After its beginning it begins
no task but for the calls of a fan-out (`begun_eq_dispatched`), and once it does not wait for its workspace any more, it
never does again and starts no fan-out either (`Past.unfold`).
-/

namespace Orchestra

/-- What a task begins with that has not begun. -/
def Task.start? (t : Task) : Option Start :=
  match t.state with
  | .fresh start => some start
  | .waiting _ _ _ => none

/-- What the tasks begin with that call these providers. -/
def Brief.starts (b : Brief) (ps : List ProviderRef) : List Start :=
  ps.map fun p => .call p.index b.kind b.payload b.context

namespace World

variable {u v w : World} {op bound : Nat} {o : Operation} {starts : List Start} {assistant : Option AssistantRecord}
  {outcome : Except Fault Result} {x : Happening}

/-- What shows of an operation whenever it is worked on, in order. -/
def during {α : Type} (see : World → Happening → List α) (w : World) (op : Nat) : List Happening → List α
  | [] => []
  | x :: xs => (if w.atWork x = some op then see w x else []) ++ (w.happen x).during see op xs

theorem during_append {α : Type} (see : World → Happening → List α) (w : World) (op : Nat) (xs ys : List Happening) :
    w.during see op (xs ++ ys) = w.during see op xs ++ (w.unfold xs).during see op ys := by
  induction xs generalizing w with
  | nil => rfl
  | cons x xs ih =>
    rw [List.cons_append, during, ih, during, List.append_assoc]
    rfl

theorem during_concat {α : Type} (see : World → Happening → List α) (w : World) (op : Nat) (xs : List Happening)
    (x : Happening) : w.during see op (xs ++ [x]) =
      w.during see op xs ++ if (w.unfold xs).atWork x = some op then see (w.unfold xs) x else [] := by
  rw [during_append, during, during, List.append_nil]

/-- The fan-out that a happening starts, if it starts one, and the providers that it calls. -/
def dispatched (w : World) : Happening → List (Brief × List ProviderRef)
  | .occurs x => (w.starts x).toList.map fun b => (b, (w.invites b).toOption.getD [])
  | _ => []

/-- The new tasks after a happening, by what they begin with. -/
def begun (w : World) (x : Happening) : List Start :=
  ((w.happen x).clock.tasks.filter (w.clock.nextTask ≤ ·.id)).filterMap Task.start?

/-- The fan-outs that an operation starts. -/
def dispatches (w : World) (op : Nat) (xs : List Happening) : List (Brief × List ProviderRef) :=
  w.during dispatched op xs

/-! ### Tasks that begin -/

/-- Tasks may have been stopped, and the new ones begin with these. -/
def Begins (starts : List Start) (w v : World) : Prop :=
  ∃ kept new : List Task, v.clock.tasks = kept ++ new ∧ (∀ t ∈ kept, t ∈ w.clock.tasks) ∧
    (∀ t ∈ new, w.clock.nextTask ≤ t.id) ∧ new.filterMap Task.start? = starts

theorem Begins.of_tasks (h : ∀ t ∈ v.clock.tasks, t ∈ w.clock.tasks) : Begins [] w v :=
  ⟨v.clock.tasks, [], (List.append_nil _).symm, h, List.forall_mem_nil _, rfl⟩

/-- Whoever passes an outcome on begins nothing. -/
theorem Passes.begins (h : Passes op assistant outcome bound w v) : Begins [] w v := by
  obtain ⟨journal, hclock⟩ := h.clock
  exact .of_tasks fun t ht => by rw [hclock] at ht; exact ht

/-- An operation that gets on sends what it asks, its workspace having been looked up, or passes an outcome on. -/
theorem resume_cases (w : World) (op : Nat) (o : Operation) :
    (w.resume op o = none ∧ w.resolved? op o = none) ∨
    (∃ context ask task found, o.stage = .resolving context ask task ∧
      w.resume op o = some (w.send op o.assistant o.token found ask) ∧
      w.resolved? op o = ask.brief? op o.token found) ∨
    ∃ v assistant outcome bound, w.resume op o = some v ∧ Passes op assistant outcome bound w v ∧
      w.resolved? op o = none := by
  unfold resume resolved?
  cases o.stage with
  | done outcome tick => exact .inl ⟨rfl, rfl⟩
  | resolving context ask task =>
    dsimp only
    rcases w.clock.ending? task with _ | f | y
    · exact .inl ⟨rfl, rfl⟩
    · by_cases hf : f = .interrupted
      · subst hf
        exact .inr (.inr ⟨_, _, _, _, rfl, passes_conclude w op _ _, rfl⟩)
      · refine .inr (.inl ⟨context, ask, task, context, rfl, ?_, ?_⟩)
        all_goals cases f <;> first | rfl | exact absurd rfl hf
    · refine .inr (.inl ?_)
      cases y with
      | workspace found => exact ⟨context, ask, task, { context with workspace := some found }, rfl, rfl, rfl⟩
      | result r | nothing => exact ⟨context, ask, task, context, rfl, rfl, rfl⟩
  | flying flight =>
    dsimp only
    cases flight.look w.clock o.token with
    | none => exact .inl ⟨rfl, rfl⟩
    | some outcome =>
      cases o.request with
      | none =>
        have hpasses : Passes op none outcome 0 w (w.complete op (outcome.map .result)) := passes_complete w op rfl
        exact .inr (.inr ⟨_, _, _, _, rfl, hpasses, rfl⟩)
      | some record => exact .inr (.inr ⟨_, _, _, _, rfl, passes_decide w op _ record outcome, rfl⟩)
  | relaying telling queue outcome =>
    dsimp only
    rw [Hooks.all_goesOn, if_pos rfl]
    split
    · exact .inl ⟨rfl, rfl⟩
    · exact .inr (.inr ⟨_, _, _, _, rfl, passes_relay w op _ outcome queue, rfl⟩)

/-- Whoever aborts an operation that is not done may stop a task of it, and passes an interruption on. -/
theorem abort_cases (w : World) (op : Nat) :
    (w.abort op = w ∧ ∀ o, w.operations[op]? = some o → o.outcome?.isSome = true) ∨
    ∃ u assistant bound, Passes op assistant (.error .interrupted) bound u (w.abort op) ∧
      u.operations = w.operations ∧ ∀ t ∈ u.clock.tasks, t ∈ w.clock.tasks := by
  have habort := w.abort_aborts op
  generalize w.abort op = v at habort ⊢
  cases habort with
  | idle done => exact .inl ⟨rfl, done⟩
  | @resolving o _ _ task _ _ =>
    exact .inr ⟨{ w with clock := w.clock.kill task }, _, _, passes_conclude _ op _ _, rfl,
      fun t ht => List.mem_of_mem_filter ht⟩
  | flying _ _ _ =>
    have hpasses : Passes op none (.error .interrupted) 0 w (w.complete op (.error .interrupted)) :=
      passes_complete w op rfl
    exact .inr ⟨w, _, _, hpasses, rfl, fun _ ht => ht⟩
  | requesting _ _ _ =>
    exact .inr ⟨w, _, _, ((told_countFailure w _ _).trans (told_announce _ _)).passes (passes_conclude _ op _ _), rfl,
      fun _ ht => ht⟩
  | @relaying o telling queue outcome _ _ =>
    exact .inr ⟨w.hush telling, _, _, passes_conclude _ op _ _, rfl, fun _ ht => ht⟩

theorem starts_resume (hstep : w.clock.step = none) (ho : w.operations[op]? = some o) :
    w.starts (.resume op) = w.resolved? op o := by
  rw [World.starts, hstep, ho]
  rfl

theorem happen_resume (hstep : w.clock.step = none) (ho : w.operations[op]? = some o) :
    w.happen (.occurs (.resume op)) = (w.resume op o).getD w := by
  have hmay : w.mayOccur (.resume op) = true := by rw [mayOccur, hstep]; rfl
  rw [happen, if_pos hmay, occur, ho, Option.bind_some]

/-- Nobody looks while a task can run. -/
theorem happen_resume_early (op : Nat) (hstep : w.clock.step ≠ none) :
    w.happen (.occurs (.resume op)) = w ∧ w.starts (.resume op) = none := by
  have hearly : w.clock.step.isNone = false := by rw [Option.isNone_eq_false_iff, Option.isSome_iff_ne_none]; exact hstep
  exact ⟨by rw [happen, mayOccur, hearly]; rfl, by rw [World.starts, hearly]; rfl⟩

/-- What becomes of an operation that is worked on after its beginning. -/
inductive Proceeds (w : World) (op : Nat) (x : Happening) : Prop
  | idles (same : w.happen x = w) (dispatched : w.dispatched x = [])
  | sends {o : Operation} {context found : Context} {ask : Ask} {task : Nat} (there : w.operations[op]? = some o)
      (stage : o.stage = .resolving context ask task) (sent : w.happen x = w.send op o.assistant o.token found ask)
      (dispatched : w.dispatched x =
        (ask.brief? op o.token found).toList.map fun b => (b, (w.invites b).toOption.getD []))
  /-- A task of the operation may have been stopped before. -/
  | passes {u : World} {assistant : Option AssistantRecord} {outcome : Except Fault Result} {bound : Nat}
      (passes : Passes op assistant outcome bound u (w.happen x)) (operations : u.operations = w.operations)
      (tasks : ∀ t ∈ u.clock.tasks, t ∈ w.clock.tasks) (dispatched : w.dispatched x = [])

theorem proceeds (hop : op < w.operations.length) (hx : w.atWork x = some op) : w.Proceeds op x := by
  obtain rfl | rfl := atWork_eq_some hop hx
  · by_cases hstep : w.clock.step = none
    · have ho : w.operations[op]? = some w.operations[op] := List.getElem?_eq_getElem hop
      have hhappen := happen_resume hstep ho
      have hdispatched : w.dispatched (.occurs (.resume op)) =
          (w.resolved? op w.operations[op]).toList.map fun b => (b, (w.invites b).toOption.getD []) := by
        rw [dispatched, starts_resume hstep ho]
      obtain ⟨hresume, hresolved⟩ | ⟨_, ask, _, found, hstage, hresume, hresolved⟩ |
        ⟨v, _, _, _, hresume, hpasses, hresolved⟩ := w.resume_cases op w.operations[op]
      all_goals rw [hresume] at hhappen; rw [hresolved] at hdispatched
      · exact .idles hhappen hdispatched
      · exact .sends ho hstage hhappen hdispatched
      · exact .passes (u := w) (by rw [hhappen]; exact hpasses) rfl (fun _ ht => ht) hdispatched
    · obtain ⟨hsame, hstarts⟩ := happen_resume_early op hstep
      exact .idles hsame (by rw [dispatched, hstarts]; rfl)
  · obtain ⟨hsame, -⟩ | ⟨u, _, _, hpasses, hops, htasks⟩ := w.abort_cases op
    · exact .idles hsame rfl
    · exact .passes hpasses hops htasks rfl

/-! ### Operations past their look-up -/

/-- The operation does not wait for its workspace to be looked up. -/
def Past (w : World) (op : Nat) : Prop :=
  ∃ o, w.operations[op]? = some o ∧ ∀ context ask task, o.stage ≠ .resolving context ask task

theorem past_of_modify {f : Operation → Operation} (hops : v.operations = w.operations.modify op f)
    (hf : ∀ o context ask task, (f o).stage ≠ .resolving context ask task) (hop : op < w.operations.length) :
    v.Past op := by
  refine ⟨f w.operations[op], ?_, hf _⟩
  rw [hops, List.getElem?_modify_eq, List.getElem?_eq_getElem hop]
  rfl

theorem Passes.past (h : Passes op assistant outcome bound w v) (hop : op < w.operations.length) : v.Past op := by
  obtain ⟨stage, hops, hconcluding, -⟩ := h.stage
  refine past_of_modify hops (fun o context ask task hstage => ?_) hop
  have hstage : stage = .resolving context ask task := hstage
  subst hstage
  rcases hconcluding with ⟨telling, queue, h⟩ | ⟨tick, h⟩ <;> cases h

theorem send_past (hop : op < w.operations.length) (assistant : Option AssistantRecord) (token : Token)
    (context : Context) (ask : Ask) : (w.send op assistant token context ask).Past op := by
  obtain ⟨f, hops, hbound⟩ := advances_send w op assistant token context ask
  refine past_of_modify hops (fun o context ask task hstage => ?_) hop
  have hleft := hbound o
  rw [Operation.stagesLeft, hstage] at hleft
  exact absurd hleft (by decide : ¬ 5 ≤ 4)

theorem Past.lt (h : w.Past op) : op < w.operations.length := by
  obtain ⟨o, ho, -⟩ := h
  exact (List.getElem?_eq_some_iff.mp ho).1

/-- **Whatever happens**, an operation that does not wait for its workspace does not begin to. -/
theorem Past.happen (h : w.Past op) (x : Happening) :
    (w.happen x).Past op ∧ (w.atWork x = some op → w.dispatched x = []) := by
  obtain ⟨o, ho, hstage⟩ := id h
  by_cases hx : w.atWork x = some op
  · cases proceeds h.lt hx with
    | idles same dispatched => exact ⟨same.symm ▸ h, fun _ => dispatched⟩
    | sends there stage _ _ =>
      cases there.symm.trans ho
      exact absurd stage (hstage _ _ _)
    | passes passes operations _ dispatched => exact ⟨passes.past (operations ▸ h.lt), fun _ => dispatched⟩
  · exact ⟨⟨o, (happen_goes w x).operation hx ho, hstage⟩, fun hwork => absurd hwork hx⟩

theorem Past.unfold (h : w.Past op) (xs : List Happening) : (w.unfold xs).Past op ∧ w.dispatches op xs = [] := by
  induction xs generalizing w with
  | nil => exact ⟨h, rfl⟩
  | cons x xs ih =>
    obtain ⟨hnext, hnone⟩ := h.happen x
    obtain ⟨hpast, hrest⟩ := ih hnext
    refine ⟨hpast, ?_⟩
    rw [dispatches, during, ← dispatches, hrest, List.append_nil]
    split
    · next hx => exact hnone hx
    · rfl

end World

end Orchestra
