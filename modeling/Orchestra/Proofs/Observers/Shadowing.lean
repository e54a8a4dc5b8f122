import Orchestra.Proofs.Events.Mirroring
import Orchestra.Proofs.Observers.Indifference

/-!
# Orchestra.Proofs.Observers.Shadowing — a run goes the same way whoever observes it

Whatever happens in a world happens in the same way in an akin one (`happen_shadowed`): if time is to pass and operations of
the other world still wait for hooks that have been told, these get on first.  So every run is shadowed by one of an akin
world, in which the same is given from outside, at the same ticks and in the same order (`unfold_shadowed`).
-/

namespace Orchestra

namespace Happening

/-- Nobody comes to listen who does more than to return or raise. -/
def Harmless : Happening → Prop
  | .occurs (.listen _ _ reaction) => Passive reaction
  | _ => True

/-- Somebody comes to listen. -/
def Listens (x : Happening) : Prop := ∃ stream name reaction, x = .occurs (.listen stream name reaction)

/-- The task of the operation is cancelled. -/
def aborts : Happening → Nat → Bool
  | .occurs (.abort op'), op => op' == op
  | _, _ => false

end Happening

namespace World

variable {lost : Nat → Bool} {u v w : World} {x : Happening} {xs ys : List Happening}

/-! ### What else is done to the service -/

theorem runCallbacks_stripped (callbacks : List ServiceCallback) (w : World) (handle : Nat) :
    (w.stripped lost).runCallbacks handle callbacks =
      ((w.runCallbacks handle callbacks).1.stripped lost, (w.runCallbacks handle callbacks).2) := by
  induction callbacks generalizing w with
  | nil => rfl
  | cons callback rest ih =>
    cases callback with
    | forget => exact ih { w with service := { w.service with owned := w.service.owned.erase handle } }
    | fail => rfl

theorem dispose_stripped (w : World) (handle : Nat) :
    (w.stripped lost).dispose handle = ((w.dispose handle).1.stripped lost, (w.dispose handle).2) := by
  have hledger : (w.stripped lost).service.ledger = w.service.ledger := rfl
  unfold dispose
  rw [hledger]
  rcases w.service.ledger.dispose handle with ⟨ledger, _ | d⟩
  · rfl
  · have hcallbacks := @runCallbacks_stripped lost d.callbacks
      { w with service := { w.service with ledger } } handle
    have hstripped : { w.stripped lost with service := { (w.stripped lost).service with ledger } } =
        ({ w with service := { w.service with ledger } } : World).stripped lost := rfl
    simp only
    rw [hstripped, hcallbacks]
    rcases ({ w with service := { w.service with ledger } } : World).runCallbacks handle d.callbacks with ⟨u, _ | f⟩
    · have hclock : (u.stripped lost).clock = u.clock.stripped := rfl
      simp only [hclock, Clockwork.disposeProvider_stripped]
      split <;> rfl
    · rfl

theorem disposeAll_stripped (handles : List Nat) (w : World) :
    (w.stripped lost).disposeAll handles = ((w.disposeAll handles).1.stripped lost, (w.disposeAll handles).2) := by
  induction handles generalizing w with
  | nil => rfl
  | cons handle rest ih =>
    rw [disposeAll, disposeAll, dispose_stripped]
    rcases w.dispose handle with ⟨u, _ | f⟩
    · exact ih u
    · cases f <;> first | rfl | exact ih u

theorem close_stripped (w : World) : (w.stripped lost).close.1 = w.close.1.stripped lost := by
  have howned : (w.stripped lost).service.owned = w.service.owned := rfl
  unfold close
  rw [howned, disposeAll_stripped]
  rcases w.disposeAll w.service.owned with ⟨u, _ | f⟩ <;> rfl

theorem register_stripped (w : World) (p : ProviderRef) (kinds : Option (List Capability)) :
    (w.stripped lost).register p kinds = (w.register p kinds).map fun r => (r.1.stripped lost, r.2) := by
  have hledger : (w.stripped lost).service.ledger = w.service.ledger := rfl
  unfold register
  rw [hledger]
  cases w.service.ledger.register p kinds <;> rfl

theorem doDeed_stripped (w : World) (d : Deed) : (w.stripped lost).doDeed d = (w.doDeed d).stripped lost := by
  cases d with
  | cancel source =>
    show ({ w.stripped lost with clock := w.clock.stripped.cancel source } : World) = _
    rw [Clockwork.cancel_stripped]
    rfl
  | dispose index =>
    have hhandle : (w.stripped lost).lastHandle? index = w.lastHandle? index := rfl
    simp only [doDeed, hhandle]
    split
    · rfl
    · rw [dispose_stripped]
  | register index =>
    have hprovider : (w.stripped lost).providerRef index = w.providerRef index := rfl
    simp only [doDeed, hprovider]
    split
    · rfl
    · rw [register_stripped]
      cases w.register _ none <;> rfl

theorem doDue_stripped (w : World) : (w.stripped lost).doDue = w.doDue.stripped lost := by
  have hfold : ∀ (ds : List (Tick × Deed)) (u : World), ds.foldl (fun w d => w.doDeed d.2) (u.stripped lost) =
      (ds.foldl (fun w d => w.doDeed d.2) u).stripped lost := by
    intro ds
    induction ds with
    | nil => exact fun _ => rfl
    | cons d ds ih =>
      intro u
      rw [List.foldl_cons, doDeed_stripped, ih, List.foldl_cons]
  exact hfold _ { w with agenda := w.agenda.filter fun d => !(d.1 ≤ w.now) }

theorem commit_stripped (w : World) (extras : Extras) (fields : Changes) :
    (w.stripped lost).commit extras fields = (w.commit extras fields).map fun r => (r.1.stripped lost, r.2) := by
  have hcontext : (w.stripped lost).service.context = w.service.context := rfl
  unfold commit
  rw [hcontext]
  cases w.service.context.set extras fields <;> rfl

theorem commit_bus {extras : Extras} {fields : Changes} {update : ContextUpdate}
    (h : w.commit extras fields = .ok (v, update)) : v.service.bus = w.service.bus := by
  unfold commit at h
  rcases hc : w.service.context.set extras fields with f | ⟨context, changed⟩
  · rw [hc] at h; cases h
  · rw [hc] at h; cases h; rfl

/-- What does the same to a stripped world, and leaves the listeners as they are. -/
theorem Akin.commuting (h : Akin lost w v) {f : World → World} (hf : ∀ u, f (u.stripped lost) = (f u).stripped lost)
    (hbus : ∀ u, (f u).service.bus = u.service.bus) : Akin lost (f w) (f v) :=
  h.both f (hf w).symm (hf v).symm (hbus w) (hbus v)

/-- **An update of the context** is refused in both or in none, and for the same reason. -/
theorem Akin.commit (h : Akin lost w v) (extras : Extras) (fields : Changes) :
    (∃ f, w.commit extras fields = .error f ∧ v.commit extras fields = .error f) ∨
    ∃ w' v' update, w.commit extras fields = .ok (w', update) ∧ v.commit extras fields = .ok (v', update) ∧
      Akin lost w' v' := by
  have hcommit := h.same fun u => u.commit extras fields
  simp only [commit_stripped] at hcommit
  cases hw : w.commit extras fields with
  | error f =>
    cases hv : v.commit extras fields with
    | error f' =>
      rw [hw, hv] at hcommit
      cases hcommit
      exact .inl ⟨f, rfl, rfl⟩
    | ok r => rw [hw, hv] at hcommit; cases hcommit
  | ok r =>
    obtain ⟨w', update⟩ := r
    cases hv : v.commit extras fields with
    | error f => rw [hw, hv] at hcommit; cases hcommit
    | ok r' =>
      obtain ⟨v', update'⟩ := r'
      rw [hw, hv] at hcommit
      obtain ⟨hstripped, rfl⟩ := Prod.mk.inj (Except.ok.inj hcommit)
      refine .inr ⟨w', v', update', rfl, rfl, fun stream => ?_, fun stream => ?_, hstripped.symm⟩
      · rw [commit_bus hw]; exact h.passive stream
      · rw [commit_bus hv]; exact h.passive' stream

/-- Whoever hears of an update makes no difference to it. -/
theorem Akin.setContext (h : Akin lost w v) (extras : Extras) (fields : Changes) :
    (∃ f, w.setContext extras fields = .error f ∧ v.setContext extras fields = .error f) ∨
    ∃ w' v' context, w.setContext extras fields = .ok (w', context) ∧ v.setContext extras fields = .ok (v', context) ∧
      Akin lost w' v' := by
  unfold World.setContext
  obtain ⟨f, hw, hv⟩ | ⟨w', v', update, hw, hv, hakin⟩ := h.commit extras fields
  · rw [hw, hv]
    exact .inl ⟨f, rfl, rfl⟩
  · rw [hw, hv]
    have hfired := hakin.fire (.context update)
    refine .inr ⟨_, _, update.context, rfl, rfl, ?_⟩
    exact ((hfired.aside (announce_stripped _ _) (announce_bus _ _)).symm.aside (announce_stripped _ _)
      (announce_bus _ _)).symm

/-! ### Occurrences -/

/-- An operation whose task is cancelled once an outcome stands is among those that are lost. -/
def LosesOnly (lost : Nat → Bool) (w : World) (x : Happening) : Prop :=
  ∀ op, x.aborts op = true → (w.decided? op).isSome → lost op = true

/-- **Whatever occurs**, other than that somebody comes to listen or that the clock is set. -/
theorem Akin.occur (h : Akin lost w v) (hb : w.books.Kept) {x : Occurrence} (hlistens : ¬ (Happening.occurs x).Listens)
    (hloses : w.LosesOnly lost (.occurs x)) (hclock : ∀ c, x ≠ .clock c) : Akin lost (w.occur x) (v.occur x) := by
  cases x with
  | begin order token => exact h.begin hb.assistantSource order token
  | resume op => exact h.occur_resume hb.foreign op
  | abort op => exact h.abort hb.foreign (hloses op (beq_self_eq_true op))
  | clock c => exact absurd rfl (hclock c)
  | tell =>
    exact ((h.aside w.tellAll_stripped w.tellAll_bus).symm.aside v.tellAll_stripped v.tellAll_bus).symm
  | due =>
    refine h.commuting (f := doDue) doDue_stripped fun u => ?_
    obtain ⟨clock, ledger, owned, hdue, -⟩ := doDue_eq u
    rw [hdue]
    rfl
  | deed d =>
    refine h.commuting (f := fun u => u.doDeed d) (fun u => u.doDeed_stripped d) fun u => ?_
    obtain ⟨clock, ledger, owned, hdeed, -⟩ := doDeed_eq u d
    rw [hdeed]
    rfl
  | register p kinds =>
    refine h.commuting (f := fun u => u.occur (.register p kinds)) (fun u => ?_) fun u => ?_
    · simp only [World.occur, register_stripped]
      cases u.register p kinds <;> rfl
    · simp only [World.occur]
      split
      · rfl
      · next hr =>
        obtain ⟨ledger, -, rfl⟩ := register_eq hr
        rfl
  | dispose handle =>
    refine h.commuting (f := fun u => (u.dispose handle).1) (fun u => by rw [dispose_stripped]) fun u => ?_
    obtain ⟨clock, ledger, owned, hdispose, -⟩ := dispose_eq u handle
    rw [hdispose]
    rfl
  | onDispose handle callback => exact h.commuting (f := fun u => u.onDispose handle callback) (fun _ => rfl) fun _ => rfl
  | listen stream name reaction => exact absurd ⟨stream, name, reaction, rfl⟩ hlistens
  | unlisten name =>
    have hw := @unlisten_stripped lost w name
    have hv := @unlisten_stripped lost v name
    exact ⟨h.passive.unlisten name, h.passive'.unlisten name, hw.trans (h.stripped.trans hv.symm)⟩
  | setContext extras fields =>
    simp only [World.occur]
    obtain ⟨f, hw, hv⟩ | ⟨w', v', context, hw, hv, hakin⟩ := h.setContext extras fields
    · rw [hw, hv]; exact h
    · rw [hw, hv]; exact hakin
  | commit extras fields =>
    simp only [World.occur]
    obtain ⟨f, hw, hv⟩ | ⟨w', v', update, hw, hv, hakin⟩ := h.commit extras fields
    · rw [hw, hv]; exact h
    · rw [hw, hv]; exact hakin
  | clearContext => exact h.commuting (f := clearContext) (fun _ => rfl) fun _ => rfl
  | close =>
    refine h.commuting (f := fun u => u.close.1) close_stripped fun u => ?_
    obtain ⟨clock, ledger, owned, tellings, hclose, -⟩ := close_eq u
    rw [hclose]
    rfl

theorem Akin.step (h : Akin lost w v) : v.clock.step.isNone = w.clock.step.isNone := by
  have hstep := congrArg Clockwork.step h.clock
  rw [Clockwork.step_stripped, Clockwork.step_stripped] at hstep
  have hnone := congrArg Option.isNone hstep
  rwa [Option.isNone_map, Option.isNone_map] at hnone

theorem Akin.mayOccur (h : Akin lost w v) (x : Occurrence) : v.mayOccur x = w.mayOccur x := by
  cases x with
  | resume op => exact h.step
  | begin _ _ | abort _ | clock _ | tell | due | deed _ | register _ _ | dispose _ | onDispose _ _ | listen _ _ _
  | unlisten _ | setContext _ _ | commit _ _ | clearContext | close => rfl

/-- **Whatever happens**, other than that time passes or somebody comes to listen. -/
theorem Akin.happen (h : Akin lost w v) (hb : w.books.Kept) (hlistens : ¬ x.Listens) (hloses : w.LosesOnly lost x)
    (hpass : ∀ tick, x ≠ .pass tick) : Akin lost (w.happen x) (v.happen x) := by
  cases x with
  | occurs x =>
    simp only [World.happen, h.mayOccur]
    split
    · next hmay => exact h.occur hb hlistens hloses fun c hc => by rw [hc] at hmay; cases hmay
    · exact h
  | turn =>
    refine h.mapClock (f := fun c => c.step.getD c) fun c => ?_
    rw [Clockwork.step_stripped]
    cases c.step <;> rfl
  | pass tick => exact absurd rfl (hpass tick)
  | prepare provider => exact h.mapClock (f := fun c => (c.spawn .none (.prepare provider)).1) fun _ => rfl
  | timer ticks => exact h.mapClock (f := fun c => (c.spawnTimer ticks).1) fun _ => rfl
  | provide p => exact h.mapClock (f := fun c => { c with providers := c.providers ++ [p] }) fun _ => rfl
  | disposeDirectly provider =>
    exact h.mapClock (f := fun c => (c.disposeProvider provider).1) fun c => by rw [Clockwork.disposeProvider_stripped]
  | read => exact h.mapClock (f := fun c => { c with journal := [] }) fun _ => rfl

/-! ### Runs -/

/-- It is not only about observers: nobody comes to listen, and no operation looks that is done or waits for hooks.  That
time passes shows in the ticks at which the rest happens. -/
def isGiven (w : World) : Happening → Bool
  | .occurs (.resume op) => (w.decided? op).isNone
  | .occurs (.listen _ _ _) | .pass _ => false
  | _ => true

/-- What is given while all this happens, and when. -/
def given (w : World) : List Happening → List (Tick × Happening)
  | [] => []
  | x :: xs => (if w.isGiven x then [(w.now, x)] else []) ++ (w.happen x).given xs

theorem given_append (w : World) (xs ys : List Happening) :
    w.given (xs ++ ys) = w.given xs ++ (w.unfold xs).given ys := by
  induction xs generalizing w with
  | nil => rfl
  | cons x xs ih =>
    rw [List.cons_append, given, ih, given, List.append_assoc]
    rfl

/-- The second run shadows the first: the same is given in both and at the same ticks, nobody comes to listen in the second,
what is taken of the journals differs by what observers are told, and the worlds are akin in the end. -/
structure Shadows (lost : Nat → Bool) (w : World) (xs : List Happening) (v : World) (ys : List Happening) : Prop where
  silent : ∀ y ∈ ys, ¬ y.Listens
  given : v.given ys = w.given xs
  taken : (v.taken ys).filter (!·.isTold) = (w.taken xs).filter (!·.isTold)
  akin : Akin lost (w.unfold xs) (v.unfold ys)

theorem Shadows.append {xs' ys' : List Happening} (h : Shadows lost w xs v ys)
    (h' : Shadows lost (w.unfold xs) xs' (v.unfold ys) ys') : Shadows lost w (xs ++ xs') v (ys ++ ys') := by
  refine ⟨List.forall_mem_append.mpr ⟨h.silent, h'.silent⟩, ?_, ?_, ?_⟩
  · rw [given_append, given_append, h.given, h'.given]
  · rw [taken_append, taken_append, List.filter_append, List.filter_append, h.taken, h'.taken]
  · rw [unfold_append, unfold_append]
    exact h'.akin

theorem Akin.isGiven (h : Akin lost w v) (x : Happening) : v.isGiven x = w.isGiven x := by
  cases x with
  | occurs x =>
    cases x with
    | resume op => exact h.undecided? op
    | begin _ _ | abort _ | clock _ | tell | due | deed _ | register _ _ | dispose _ | onDispose _ _ | listen _ _ _
    | unlisten _ | setContext _ _ | commit _ _ | clearContext | close => rfl
  | turn | pass _ | prepare _ | timer _ | provide _ | disposeDirectly _ | read => rfl

/-- What happens in the same way in both. -/
theorem shadows_same (h : Akin lost w v) (hlistens : ¬ x.Listens) (hakin : Akin lost (w.happen x) (v.happen x)) :
    Shadows lost w [x] v [x] := by
  refine ⟨List.forall_mem_singleton.mpr hlistens, ?_, ?_, hakin⟩
  · rw [given, given, h.now, h.isGiven]; rfl
  · cases x with
    | read =>
      have hjournal : v.clock.journal.filter (!·.isTold) = w.clock.journal.filter (!·.isTold) :=
        congrArg Clockwork.journal h.clock
      show (v.clock.journal.reverse ++ []).filter _ = (w.clock.journal.reverse ++ []).filter _
      rw [List.append_nil, List.append_nil, List.filter_reverse, List.filter_reverse, hjournal]
    | occurs _ | turn | pass _ | prepare _ | timer _ | provide _ | disposeDirectly _ => rfl

/-! ### Catching up -/

theorem resumed_happens {op : Nat} {o : Operation} (hstep : w.clock.step = none) (ho : w.operations[op]? = some o)
    (hv : w.resume op o = some v) : w.happen (.occurs (.resume op)) = v := by
  have hmay : w.mayOccur (.resume op) = true := by rw [mayOccur, hstep]; rfl
  rw [World.happen, if_pos hmay, occur, ho, Option.bind_some, hv, Option.getD_some]

/-- What a decided operation does that gets on is not given, and shows nowhere. -/
theorem resumed_shadows {op : Nat} (hd : (v.decided? op).isNone = false)
    (hakin : Akin lost w (v.happen (.occurs (.resume op)))) : Shadows lost w [] v [.occurs (.resume op)] := by
  refine ⟨List.forall_mem_singleton.mpr ?_, ?_, rfl, hakin⟩
  · rintro ⟨stream, name, reaction, h⟩
    cases h
  · have hnot : v.isGiven (.occurs (.resume op)) = false := hd
    rw [given, given, hnot]
    rfl

/-- Where no operation can get on in a world, those of an akin one that can are done with waiting for hooks, and get on
until none of them can. -/
theorem catch_up (h : Akin lost w v) (hforeign : ∀ o ∈ w.operations, Foreign o.assistant) (hstep : w.clock.step = none)
    (hrest : w.resumeFirst = none) : ∃ ys, Shadows lost w [] v ys ∧ (v.unfold ys).resumeFirst = none := by
  induction hn : v.stagesLeft using Nat.strongRecOn generalizing v with
  | ind n ih =>
    cases hfirst : v.resumeFirst with
    | none => exact ⟨[], ⟨List.forall_mem_nil _, rfl, rfl, h⟩, hfirst⟩
    | some v' =>
      obtain ⟨op, o, ho, hv'⟩ := resumeFirst_eq_some hfirst
      obtain ⟨o', ho', -, hassistant⟩ := h.symm.there ho
      have ha : Foreign o.assistant := hassistant ▸ hforeign o' (List.mem_of_getElem? ho')
      have hstep' : v.clock.step = none := by rw [← Option.isNone_iff_eq_none, h.step, hstep]; rfl
      cases hd : o.decided? with
      | none =>
        -- it would get on in the other world as well
        have hrel := h.symm.resume ha ho hd
        rw [hv', resumeFirst_eq_none.mp hrest op o (h.symm.undecided ho hd)] at hrel
        cases hrel
      | some answer =>
        have hakin := h.trans (resume_akin h.passive' ha ho hd hv')
        obtain ⟨ys, hys, hnone⟩ := ih v'.stagesLeft (hn ▸ resume_lt ho hv') hakin rfl
        have hhappens : v.happen (.occurs (.resume op)) = v' := resumed_happens hstep' ho hv'
        have hdecided : (v.decided? op).isNone = false := by rw [World.decided?, ho, Option.bind_some, hd]; rfl
        have hfirst : Shadows lost w [] v [.occurs (.resume op)] := resumed_shadows hdecided (hhappens ▸ hakin)
        have hunfold : v.unfold [.occurs (.resume op)] = v' := hhappens
        exact ⟨_, hfirst.append (hunfold ▸ hys), by rw [unfold_append, hunfold, hnone]⟩

/-! ### Time and whole runs -/

/-- Time passes in both once the other one has caught up. -/
theorem pass_shadowed (h : Akin lost w v) (hb : w.books.Kept) (tick : Tick) :
    ∃ ys, Shadows lost w [.pass tick] v ys := by
  have hlistens : ¬ (Happening.pass tick).Listens := by rintro ⟨stream, name, reaction, h⟩; cases h
  by_cases hmay : w.mayPass tick = true
  · have hmay' := hmay
    simp only [mayPass, Bool.and_eq_true, Option.isNone_iff_eq_none] at hmay'
    obtain ⟨⟨⟨hstep, hrest⟩, hle⟩, hdue⟩ := hmay'
    obtain ⟨ys, hys, hnone⟩ := catch_up h hb.foreign hstep hrest
    have hakin : Akin lost w (v.unfold ys) := hys.akin
    have hpasses : (v.unfold ys).mayPass tick = true := by
      have hnext : (v.unfold ys).clock.nextDue = w.clock.nextDue := hakin.same fun u => u.clock.nextDue
      simp only [mayPass, hakin.step, hakin.now, hnext, hnone, hstep, hle, hdue, Option.isNone_none, Bool.and_self]
    have hmoved : Akin lost (w.at_ tick) ((v.unfold ys).at_ tick) :=
      hakin.mapClock (f := fun c => c.at_ tick) fun _ => rfl
    have hpassed : Shadows lost w [.pass tick] (v.unfold ys) [.pass tick] := by
      refine shadows_same hakin hlistens ?_
      simp only [happen, hmay, hpasses, if_true]
      exact hmoved
    exact ⟨_, hys.append hpassed⟩
  · have hstays : w.happen (.pass tick) = w := if_neg hmay
    refine ⟨[], List.forall_mem_nil _, rfl, rfl, ?_⟩
    show Akin lost (w.happen (.pass tick)) v
    rw [hstays]
    exact h

/-- **Whatever happens** is shadowed. -/
theorem happen_shadowed (h : Akin lost w v) (hb : w.books.Kept) (hharmless : x.Harmless)
    (hloses : w.LosesOnly lost x) : ∃ ys, Shadows lost w [x] v ys := by
  by_cases hlistens : x.Listens
  · -- nobody comes to listen in the other world
    obtain ⟨stream, name, reaction, rfl⟩ := hlistens
    have hpassive := h.passive.listen stream name hharmless
    exact ⟨[], List.forall_mem_nil _, rfl, rfl, ⟨hpassive, h.passive', h.stripped⟩⟩
  · by_cases hpass : ∃ tick, x = .pass tick
    · obtain ⟨tick, rfl⟩ := hpass
      exact pass_shadowed h hb tick
    · exact ⟨[x], shadows_same h hlistens (h.happen hb hlistens hloses fun tick hx => hpass ⟨tick, hx⟩)⟩

/-- The task of the operation is cancelled after it was decided what its caller gets, so that the caller itself gives up
what it was to get. -/
def belated (w : World) : List Happening → Nat → Bool
  | [], _ => false
  | x :: xs, op => x.aborts op && (w.decided? op).isSome || (w.happen x).belated xs op

theorem belated_append (w : World) (xs ys : List Happening) (op : Nat) :
    w.belated (xs ++ ys) op = (w.belated xs op || (w.unfold xs).belated ys op) := by
  induction xs generalizing w with
  | nil => rfl
  | cons x xs ih =>
    rw [List.cons_append, belated, ih, belated, Bool.or_assoc]
    rfl

/-- **A whole run** is shadowed by one of any akin world. -/
theorem unfold_shadowed (h : Akin lost w v) (hb : w.books.Balanced) (hharmless : ∀ x ∈ xs, x.Harmless)
    (hlost : ∀ op, w.belated xs op = true → lost op = true) : ∃ ys, Shadows lost w xs v ys := by
  induction xs using List.reverseRecOn with
  | nil => exact ⟨[], List.forall_mem_nil _, rfl, rfl, h⟩
  | append_singleton xs x ih =>
    obtain ⟨hharmless, hx⟩ := List.forall_mem_append.mp hharmless
    obtain ⟨ys, hys⟩ := ih hharmless fun op hop => hlost op (by rw [belated_append, hop, Bool.true_or])
    have hloses : (w.unfold xs).LosesOnly lost x := fun op habort hdecided =>
      hlost op (by rw [belated_append, belated, habort, hdecided, Bool.and_self, Bool.true_or, Bool.or_true])
    obtain ⟨ys', hys'⟩ :=
      happen_shadowed hys.akin (unfold_balanced hb xs).toKept (hx x (List.mem_singleton.mpr rfl)) hloses
    exact ⟨ys ++ ys', hys.append hys'⟩

end World

end Orchestra
