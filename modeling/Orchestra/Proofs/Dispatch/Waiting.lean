import Orchestra.Proofs.Dispatch.Calling

/-!
# Orchestra.Proofs.Dispatch.Waiting — what an operation does that waits for a fan-out

Once its fan-out is launched, an operation looks at its calls until these or its token decide it, and from then on it only
passes on the outcome (`Stands.resume`); whoever aborts it puts an interruption in the place of the outcome
(`Stands.abort`).  Neither touches a task, and nobody else touches the operation (`Stands.happen`).
-/

namespace Orchestra

namespace World

variable {v w : World} {op bound : Nat} {o : Operation} {f : Flight} {outcome : Except Fault Result}
  {d : Option (Except Fault Result)}

/-- What the caller of an operation is handed of what its fan-out is decided to: a result that cannot be displayed is not
handed over, but only requests display theirs. -/
def receives (w : World) (o : Operation) (outcome : Except Fault Result) : Except Fault Result :=
  if o.request.isSome then outcome.bind w.handed else outcome

/-- The operation is where it was launched, or it passes on what its caller is handed and has nothing else to do. -/
def Stands (w : World) (op : Nat) (o : Operation) (d : Option (Except Fault Result)) : Prop :=
  ∃ stage, w.operations[op]? = some { o with stage } ∧
    match d with
    | none => stage = o.stage
    | some outcome => Concluding o.assistant (w.receives o outcome) stage

theorem receives_congr (h : v.handed = w.handed) : v.receives o = w.receives o := by
  unfold receives
  rw [h]

theorem receives_error (w : World) (o : Operation) (fault : Fault) : w.receives o (.error fault) = .error fault := by
  unfold receives
  split <;> rfl

/-- Nothing changed on the clock but what can be seen of it. -/
def Aside (w v : World) : Prop := ∃ journal, v.clock = { w.clock with journal }

theorem Aside.refl (w : World) : Aside w w := ⟨w.clock.journal, rfl⟩

theorem Passes.stands {stage : Stage} (h : Passes op o.assistant (w.receives o outcome) bound w v)
    (ho : w.operations[op]? = some { o with stage }) : v.Stands op o (some outcome) := by
  obtain ⟨stage', hoperations, hconcluding, -⟩ := h.stage
  refine ⟨stage', ?_, receives_congr h.handed ▸ hconcluding⟩
  rw [hoperations, List.getElem?_modify_eq, ho]
  rfl

/-- What is decided of an operation is what its caller is to get. -/
theorem Stands.decided? (h : w.Stands op o d) (hs : o.stage = .flying f) :
    w.decided? op = d.map fun outcome => answerTo o.assistant (w.receives o outcome) := by
  obtain ⟨stage, ho, hstage⟩ := h
  rw [World.decided?, ho, Option.bind_some, Operation.decided?]
  cases d with
  | none =>
    rw [hstage, hs]
    rfl
  | some outcome =>
    rcases hstage with ⟨telling, queue, rfl⟩ | ⟨tick, rfl⟩ <;> rfl

/-- **A look** decides an operation that is not decided, if there is something to see, and an outcome stands. -/
theorem Stands.resume (h : w.Stands op o d) (hs : o.stage = .flying f)
    (hassistant : o.request = none → o.assistant = none) :
    (w.occur (.resume op)).Stands op o (d.or (f.look w.clock o.token)) ∧ Aside w (w.occur (.resume op)) := by
  have hstands := h
  obtain ⟨stage, ho, hstage⟩ := h
  have hoccur : w.occur (.resume op) = (w.resume op { o with stage }).getD w := by rw [occur, ho, Option.bind_some]
  have hpasses : ∀ {v : World} {outcome : Except Fault Result} {bound : Nat},
      Passes op o.assistant (w.receives o outcome) bound w v → w.resume op { o with stage } = some v →
      (w.occur (.resume op)).Stands op o (some outcome) ∧ Aside w (w.occur (.resume op)) := by
    intro v outcome bound hpass hresume
    rw [hoccur, hresume, Option.getD_some]
    exact ⟨hpass.stands ho, hpass.clock⟩
  have hsame : w.resume op { o with stage } = none →
      (w.occur (.resume op)).Stands op o d ∧ Aside w (w.occur (.resume op)) := by
    intro hresume
    rw [hoccur, hresume, Option.getD_none]
    exact ⟨hstands, .refl w⟩
  unfold World.resume at hpasses hsame
  cases d with
  | none =>
    obtain rfl : stage = .flying f := hstage.trans hs
    rw [Option.none_or]
    cases hlook : f.look w.clock o.token with
    | none =>
      simp only [hlook] at hsame
      exact hsame rfl
    | some outcome =>
      simp only [hlook] at hpasses
      cases hr : o.request with
      | none =>
        have hbare : w.receives o outcome = outcome := by rw [receives, hr]; rfl
        have hcomplete : Passes op o.assistant (w.receives o outcome) 0 w (w.complete op (outcome.map .result)) :=
          passes_complete w op (by rw [hbare, hassistant hr]; rfl)
        exact hpasses hcomplete (by rw [hr]; rfl)
      | some record =>
        have hrequest : w.receives o outcome = outcome.bind w.handed := by rw [receives, hr]; rfl
        exact hpasses (hrequest ▸ passes_decide w op o.assistant record outcome) (by rw [hr]; rfl)
  | some outcome =>
    rw [Option.some_or]
    rcases hstage with ⟨telling, queue, rfl⟩ | ⟨tick, rfl⟩
    · simp only [Hooks.all_goesOn, if_true] at hpasses hsame
      split at hsame
      · exact hsame rfl
      · next htold =>
        rw [if_neg htold] at hpasses
        exact hpasses (passes_relay w op o.assistant _ queue) rfl
    · exact hsame rfl

/-- Whoever aborts the operation puts an interruption in the place of its outcome, unless the caller has been given it. -/
theorem Stands.abort (h : w.Stands op o d) (hs : o.stage = .flying f)
    (hassistant : o.request = none → o.assistant = none) :
    (∃ d', (w.occur (.abort op)).Stands op o d') ∧ Aside w (w.occur (.abort op)) := by
  have hstands := h
  obtain ⟨stage, ho, hstage⟩ := h
  have hpasses : ∀ {v : World} {bound : Nat}, Passes op o.assistant (.error .interrupted) bound w v →
      (∃ d', v.Stands op o d') ∧ Aside w v := fun hpass =>
    ⟨⟨some (.error .interrupted), Passes.stands ((w.receives_error o .interrupted).symm ▸ hpass) ho⟩, hpass.clock⟩
  simp only [occur, World.abort, ho]
  have hstages : stage = .flying f ∨ ∃ outcome, Concluding o.assistant outcome stage := by
    cases d with
    | none => exact .inl (hstage.trans hs)
    | some outcome => exact .inr ⟨_, hstage⟩
  rcases hstages with rfl | ⟨outcome, ⟨telling, queue, rfl⟩ | ⟨tick, rfl⟩⟩
  · dsimp only
    cases hr : o.request with
    | none =>
      have hcomplete : Passes op o.assistant (.error .interrupted) 0 w (w.complete op (.error .interrupted)) :=
        passes_complete w op (by rw [hassistant hr]; rfl)
      exact hpasses hcomplete
    | some record =>
      exact hpasses (((told_countFailure w _ _).trans (told_announce _ _)).passes (passes_conclude _ op _ _))
  · have hhushed : Told w (w.hush telling) := told_of_clock rfl rfl rfl rfl
    exact hpasses (hhushed.passes (passes_conclude _ op _ _))
  · exact ⟨⟨d, hstands⟩, .refl w⟩

/-- What works on an operation that has begun: it gets on, or it is aborted. -/
theorem atWork_eq_some {x : Happening} (hop : op < w.operations.length) (h : w.atWork x = some op) :
    x = .occurs (.resume op) ∨ x = .occurs (.abort op) := by
  cases x with
  | occurs x =>
    cases x with
    | begin order token => exact absurd (Option.some.inj h) (Nat.ne_of_gt hop)
    | resume i => exact .inl (congrArg _ (congrArg _ (Option.some.inj h)))
    | abort i => exact .inr (congrArg _ (congrArg _ (Option.some.inj h)))
    | clock _ | tell | due | deed _ | register _ _ | dispose _ | onDispose _ _ | listen _ _ _ | unlisten _
    | setContext _ _ | commit _ _ | clearContext | close => cases h
  | turn | pass _ | prepare _ | timer _ | provide _ | disposeDirectly _ | read => cases h

theorem Stands.lt (h : w.Stands op o d) : op < w.operations.length := by
  obtain ⟨stage, ho, -⟩ := h
  exact (List.getElem?_eq_some_iff.mp ho).1

/-- **Whatever happens**, only a look at the calls changes where the operation stands, and whoever aborts it. -/
theorem Stands.happen (h : w.Stands op o d) {x : Happening} (hx : w.atWork x ≠ some op) : (w.happen x).Stands op o d := by
  obtain ⟨stage, ho, hstage⟩ := h
  have hsame := receives_congr (o := o) (happen_goes w x).handed
  refine ⟨stage, (happen_goes w x).operation hx ho, ?_⟩
  cases d with
  | none => exact hstage
  | some outcome => exact hsame ▸ hstage

theorem Stands.unfold (h : w.Stands op o d) (hs : o.stage = .flying f) (hbare : o.request = none → o.assistant = none)
    (xs : List Happening) : ∃ d', (w.unfold xs).Stands op o d' := by
  induction xs using List.reverseRecOn with
  | nil => exact ⟨d, h⟩
  | append_singleton xs x ih =>
    obtain ⟨d', ih⟩ := ih
    rw [unfold_concat]
    by_cases hx : (w.unfold xs).atWork x = some op
    · obtain rfl | rfl := atWork_eq_some ih.lt hx
      all_goals
        simp only [World.happen]
        split
      · exact ⟨_, (ih.resume hs hbare).1⟩
      · exact ⟨d', ih⟩
      · exact (ih.abort hs hbare).1
      · exact ⟨d', ih⟩
    · exact ⟨d', ih.happen hx⟩

/-- **An operation works on no task** while it waits for a fan-out and once that is decided. -/
theorem Stands.aside (h : w.Stands op o d) (hs : o.stage = .flying f) (hbare : o.request = none → o.assistant = none)
    {x : Happening} (hx : w.atWork x = some op) : Aside w (w.happen x) := by
  obtain rfl | rfl := atWork_eq_some h.lt hx
  all_goals
    simp only [World.happen]
    split
  · exact (h.resume hs hbare).2
  · exact .refl w
  · exact (h.abort hs hbare).2
  · exact .refl w

end World

end Orchestra
