import Orchestra.Proofs.Registry.Projection

/-!
# Orchestra.Proofs.Registry.Disposal — when a registration takes its provider with it

A provider is disposed of with a registration when it is on no list afterwards.  The lists are those of the live
registrations (`Projected`), so that is when no other live registration of the provider is for any kind (`Unlisted`).  A
registration may be for no kind at all: it is live, but it keeps its provider on no list.
-/

namespace Orchestra

namespace Ledger

variable {Callback : Type} {ids : Nat → String} {l : Ledger Callback}

/-- The provider that an act disposes of. -/
def disposedBy (l : Ledger Callback) : Act Callback → Option Nat
  | .dispose handle => (l.dispose handle).2.bind fun d => if d.disposesProvider then some d.provider.index else none
  | .register .. => none
  | .onDispose .. => none

/-- The provider that an act registers; none if it is refused. -/
def registeredBy (ids : Nat → String) (l : Ledger Callback) : Act Callback → Option Nat
  | .register provider capabilities kinds =>
    match l.register ⟨provider, ids provider, capabilities⟩ kinds with
    | .ok _ => some provider
    | .error _ => none
  | .dispose _ => none
  | .onDispose .. => none

/-- The live registrations of a provider, if any, are for no kind. -/
def Unlisted (provider : Nat) (rs : List (Registration Callback)) : Prop :=
  ∀ r ∈ rs, r.disposed = false → r.provider.index = provider → r.kinds = []

theorem lists?_eq_false (hl : Projected ids l) (p : ProviderRef) :
    l.registry.lists? p = false ↔ Unlisted p.index l.registrations := by
  have hmem : ∀ q, q ∈ l.registry.all ↔ ∃ r ∈ l.registrations, r.disposed = false ∧ r.provider = q ∧ r.kinds ≠ [] := by
    intro q
    rw [Registry.mem_all_iff hl.tidy]
    constructor
    · rintro ⟨k, hk⟩
      rw [hl.listed, liveFor] at hk
      obtain ⟨r, hr, rfl⟩ := List.mem_map.mp hk
      obtain ⟨hmem, hlive⟩ := List.mem_filter.mp hr
      have hlive' : r.disposed = false ∧ k ∈ r.kinds := by simpa using hlive
      exact ⟨r, hmem, hlive'.1, rfl, List.ne_nil_of_mem hlive'.2⟩
    · rintro ⟨r, hmem, hlive, rfl, hkinds⟩
      obtain ⟨k, hk⟩ := List.exists_mem_of_ne_nil _ hkinds
      refine ⟨k, ?_⟩
      rw [hl.listed, liveFor]
      exact List.mem_map.mpr ⟨r, List.mem_filter.mpr ⟨hmem, by simp [hlive, hk]⟩, rfl⟩
  have hlists : l.registry.lists? p = false ↔ ∀ q ∈ l.registry.all, q.index ≠ p.index := by
    simp [Registry.lists?]
  rw [hlists]
  constructor
  · intro h r hr hlive hindex
    by_contra hkinds
    exact h r.provider ((hmem _).mpr ⟨r, hr, hlive, rfl, hkinds⟩) hindex
  · intro h q hq hindex
    obtain ⟨r, hr, hlive, rfl, hkinds⟩ := (hmem q).mp hq
    exact hkinds (h r hr hlive hindex)

/-! ### One disposal -/

/-- Disposing of a live handle disposes of its provider if nothing that stays live lists it. -/
theorem disposedBy_of_live {handle : Nat} {r : Registration Callback}
    (h : l.registrations[handle]? = some r) (hr : r.disposed = false) :
    l.disposedBy (.dispose handle) =
      if (l.dispose handle).1.registry.lists? r.provider then none else some r.provider.index := by
  simp only [disposedBy, Ledger.dispose, h, hr, Bool.false_eq_true, if_false, Option.bind_some]
  cases (l.registry.unregister r.provider r.kinds).lists? r.provider <;> rfl

theorem disposedBy_of_not_live {handle : Nat} (h : ∀ r, l.registrations[handle]? = some r → r.disposed = true) :
    l.disposedBy (.dispose handle) = none := by
  simp only [disposedBy, Ledger.dispose]
  cases hr : l.registrations[handle]? with
  | none => rfl
  | some r => simp [h r hr]

/-- What disposes of a provider is disposing of a live handle of it. -/
theorem live_of_disposedBy {act : Act Callback} {provider : Nat} (h : l.disposedBy act = some provider) :
    ∃ handle r, act = .dispose handle ∧ l.registrations[handle]? = some r ∧ r.disposed = false ∧
      r.provider.index = provider := by
  cases act with
  | register | onDispose => cases h
  | dispose handle =>
    by_cases hd : ∀ r, l.registrations[handle]? = some r → r.disposed = true
    · rw [disposedBy_of_not_live hd] at h
      cases h
    · push Not at hd
      obtain ⟨r, hget, hr⟩ := hd
      have hlive : r.disposed = false := by simpa using hr
      refine ⟨handle, r, rfl, hget, hlive, ?_⟩
      simp only [disposedBy, Ledger.dispose, hget, hlive, Bool.false_eq_true, if_false, Option.bind_some] at h
      split at h
      · exact Option.some.inj h
      · cases h

/-- After a handle is disposed of, its provider is unlisted if all its other live registrations are for no kind. -/
theorem unlisted_dispose {handle : Nat} {r : Registration Callback} (h : l.registrations[handle]? = some r)
    (hr : r.disposed = false) (provider : Nat) :
    Unlisted provider (l.dispose handle).1.registrations ↔
      ∀ other q, other ≠ handle → l.registrations[other]? = some q → q.disposed = false →
        q.provider.index = provider → q.kinds = [] := by
  have hregs : (l.dispose handle).1.registrations =
      l.registrations.modify handle fun r => { r with disposed := true, callbacks := [] } := by
    simp [Ledger.dispose, h, hr]
  rw [hregs]
  constructor
  · intro hu other q hne hq
    refine hu q (List.mem_of_getElem? (i := other) ?_)
    rw [List.getElem?_modify, hq]
    simp [Ne.symm hne]
  · intro hother q hq hlive
    obtain ⟨other, hq⟩ := List.mem_iff_getElem?.mp hq
    rw [List.getElem?_modify] at hq
    obtain ⟨q', hq', rfl⟩ := Option.map_eq_some_iff.mp hq
    by_cases hne : handle = other
    · simp [hne] at hlive
    · simp only [if_neg hne] at hlive ⊢
      exact hother other q' (Ne.symm hne) hq' hlive

/-- **One disposal.**  A live handle takes its provider with it when no other live registration of it is for any kind. -/
theorem disposedBy_eq_some (hl : Projected ids l) {handle : Nat} {r : Registration Callback}
    (h : l.registrations[handle]? = some r) (hr : r.disposed = false) :
    l.disposedBy (.dispose handle) = some r.provider.index ↔
      ∀ other q, other ≠ handle → l.registrations[other]? = some q → q.disposed = false →
        q.provider.index = r.provider.index → q.kinds = [] := by
  rw [disposedBy_of_live h hr, ← unlisted_dispose h hr, ← lists?_eq_false (hl.dispose handle)]
  cases (l.dispose handle).1.registry.lists? r.provider <;> simp

/-! ### Between two disposals -/

theorem Unlisted.modify {provider : Nat} {rs : List (Registration Callback)} (h : Unlisted provider rs) (handle : Nat)
    {f : Registration Callback → Registration Callback} (hp : ∀ r, (f r).provider = r.provider)
    (hk : ∀ r, (f r).kinds = r.kinds) (hf : ∀ r, (f r).disposed = false → r.disposed = false) :
    Unlisted provider (rs.modify handle f) := by
  intro r hr hlive hindex
  obtain ⟨i, hi⟩ := List.mem_iff_getElem?.mp hr
  rw [List.getElem?_modify] at hi
  obtain ⟨q, hq, rfl⟩ := Option.map_eq_some_iff.mp hi
  have hmem := List.mem_of_getElem? hq
  by_cases hi : handle = i
  · simp only [if_pos hi, hp, hk] at hlive hindex ⊢
    exact h q hmem (hf q hlive) hindex
  · simp only [if_neg hi] at hlive hindex ⊢
    exact h q hmem hlive hindex

/-- Only registering a provider can put it on a list. -/
theorem Unlisted.act {provider : Nat} (h : Unlisted provider l.registrations) {a : Act Callback}
    (hnew : registeredBy ids l a ≠ some provider) : Unlisted provider (l.act ids a).registrations := by
  cases a with
  | register p capabilities kinds =>
    simp only [registeredBy, Ledger.act] at hnew ⊢
    cases hr : l.register ⟨p, ids p, capabilities⟩ kinds with
    | error f => exact h
    | ok res =>
      obtain ⟨l', handle⟩ := res
      obtain ⟨r', selected, -, -, rfl⟩ := register_ok hr
      rw [hr] at hnew
      intro r hmem hlive hindex
      rcases List.mem_append.mp hmem with hmem | hmem
      · exact h r hmem hlive hindex
      · rw [List.mem_singleton.mp hmem] at hindex
        exact absurd (congrArg some hindex) hnew
  | dispose handle =>
    simp only [Ledger.act, Ledger.dispose]
    split
    · exact h
    · split
      · exact h
      · exact h.modify handle (fun _ => rfl) (fun _ => rfl) fun _ hd => absurd hd.symm Bool.false_ne_true
  | onDispose handle callback =>
    exact h.modify handle (fun _ => rfl) (fun _ => rfl) fun _ hd => hd

/-- Some act among these registers the provider. -/
def RegisteredIn (ids : Nat → String) (l : Ledger Callback) (acts : List (Act Callback)) (provider : Nat) : Prop :=
  ∃ earlier a later, acts = earlier ++ a :: later ∧ registeredBy ids (earlier.foldl (act ids) l) a = some provider

theorem Unlisted.acts {provider : Nat} (acts : List (Act Callback)) (h : Unlisted provider l.registrations)
    (hnew : ¬RegisteredIn ids l acts provider) : Unlisted provider (acts.foldl (Ledger.act ids) l).registrations := by
  induction acts generalizing l with
  | nil => exact h
  | cons a acts ih =>
    have hhead : registeredBy ids l a ≠ some provider := fun ha => hnew ⟨[], a, acts, rfl, ha⟩
    refine ih (h.act hhead) ?_
    rintro ⟨earlier, b, later, rfl, hb⟩
    exact hnew ⟨a :: earlier, b, later, rfl, hb⟩

/-- A provider that was just disposed of is on no list. -/
theorem Projected.unlisted_of_disposedBy (hl : Projected ids l) {a : Act Callback} {provider : Nat}
    (h : l.disposedBy a = some provider) : Unlisted provider (l.act ids a).registrations := by
  obtain ⟨handle, r, rfl, hget, hlive, rfl⟩ := live_of_disposedBy h
  exact (unlisted_dispose hget hlive _).mpr ((disposedBy_eq_some hl hget hlive).mp h)

/-- **Disposals.**  After any acts, disposing of a live handle disposes of its provider exactly when no other live
registration of it is for any kind; disposing of any other handle disposes of nobody.  Before a provider is disposed of
again it was registered again, or else the handle is one for no kind, which had outlived its provider. -/
theorem disposals (ids : Nat → String) (acts : List (Act Callback)) :
    let l := after ids acts
    (∀ handle r, l.registrations[handle]? = some r → r.disposed = false →
      (l.disposedBy (.dispose handle) = some r.provider.index ↔
        ∀ other q, other ≠ handle → l.registrations[other]? = some q → q.disposed = false →
          q.provider.index = r.provider.index → q.kinds = []) ∧
      (l.disposedBy (.dispose handle) = none ∨ l.disposedBy (.dispose handle) = some r.provider.index)) ∧
    (∀ handle, (∀ r, l.registrations[handle]? = some r → r.disposed = true) →
      l.disposedBy (.dispose handle) = none) ∧
    (∀ first between second provider, l.disposedBy first = some provider →
      (after ids (acts ++ first :: between)).disposedBy second = some provider →
        RegisteredIn ids (l.act ids first) between provider ∨
        ∃ handle r, second = .dispose handle ∧
          (after ids (acts ++ first :: between)).registrations[handle]? = some r ∧ r.kinds = []) := by
  intro l
  have hl : Projected ids l := projected_after ids acts
  refine ⟨fun handle r hget hlive => ⟨disposedBy_eq_some hl hget hlive, ?_⟩, fun handle => disposedBy_of_not_live, ?_⟩
  · rw [disposedBy_of_live hget hlive]
    split
    · exact Or.inl rfl
    · exact Or.inr rfl
  · intro first between second provider hfirst hsecond
    by_cases hnew : RegisteredIn ids (l.act ids first) between provider
    · exact Or.inl hnew
    · have hafter : after ids (acts ++ first :: between) = between.foldl (act ids) (l.act ids first) := by
        simp [after, l]
      have hun := (hl.unlisted_of_disposedBy hfirst).acts between hnew
      obtain ⟨handle, r, rfl, hget, hlive, hindex⟩ := live_of_disposedBy hsecond
      refine Or.inr ⟨handle, r, rfl, hget, ?_⟩
      rw [hafter] at hget
      exact hun r (List.mem_of_getElem? hget) hlive hindex

/-- A registration for no kind does not hold its provider: it is disposed of with another one, and then a second time. -/
theorem disposed_while_live :
    let acts : List (Act Unit) := [.register 0 [.chat] (some []), .register 0 [.chat] none]
    let l := after (fun _ => "a") acts
    let l' := after (fun _ => "a") (acts ++ [.dispose 1])
    (l.registrations[0]?.map fun r => (r.provider.index, r.disposed)) = some (0, false) ∧
      l.disposedBy (.dispose 1) = some 0 ∧ l'.disposedBy (.dispose 0) = some 0 := by
  decide

end Ledger

/-! ### Scenarios -/

namespace Scenario.Registry

/-- Disposing of a handle without callbacks notes the disposal of the provider that the ledger names, and of no other. -/
theorem State.dispose_journal (s : State) (handle : Nat)
    (h : ∀ r, s.ledger.registrations[handle]? = some r → r.callbacks = []) :
    (s.dispose handle).1.journal =
      ((s.ledger.disposedBy (.dispose handle)).bind (s.providers[·]?)).toList.map (.dispose ·.key) ++ s.journal := by
  by_cases hd : ∀ r, s.ledger.registrations[handle]? = some r → r.disposed = true
  · rw [Ledger.disposedBy_of_not_live hd]
    cases hr : s.ledger.registrations[handle]? with
    | none => simp [State.dispose, Ledger.dispose, hr]
    | some r => simp [State.dispose, Ledger.dispose, hr, hd r hr]
  · push Not at hd
    obtain ⟨r, hr, hlive⟩ := hd
    have hlive' : r.disposed = false := by simpa using hlive
    simp only [State.dispose, Ledger.disposedBy, Ledger.dispose, hr, hlive', h r hr, State.runCallbacks,
      Bool.false_eq_true, if_false, Option.bind_some]
    cases (s.ledger.registry.unregister r.provider r.kinds).lists? r.provider with
    | true => rfl
    | false =>
      cases hp : s.providers[r.provider.index]? with
      | none => simp [hp]
      | some p => simp [hp, State.log]

end Scenario.Registry

end Orchestra
