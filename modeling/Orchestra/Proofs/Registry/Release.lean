import Orchestra.Proofs.Registry.Disposal

/-!
# Orchestra.Proofs.Registry.Release — disposing of many registrations, one after another

Disposing of a handle ends the registration at it and no other (`live_dispose`), so disposing of many ends those at them
(`live_disposeEach`).  A provider goes with the last of its registrations that is for some kind: if all that it has are
among the handles and none is for no kind, it is disposed of exactly once on the way (`count_disposedByEach`).
-/

namespace Orchestra

namespace Ledger

variable {Callback : Type} {ids : Nat → String} {l : Ledger Callback} {handle other : Nat} {hs : List Nat}
  {r q : Registration Callback} {k : Capability}

/-- The registration at a handle, not yet disposed of. -/
def Live (l : Ledger Callback) (handle : Nat) (r : Registration Callback) : Prop :=
  l.registrations[handle]? = some r ∧ r.disposed = false

theorem not_live (h : ∀ r, ¬ l.Live handle r) : ∀ r, l.registrations[handle]? = some r → r.disposed = true := by
  intro r hr
  by_contra hlive
  exact h r ⟨hr, Bool.eq_false_iff.mpr hlive⟩

theorem isDisposed_eq_false (h : handle < l.registrations.length) :
    l.isDisposed handle = false ↔ ∃ r, l.Live handle r := by
  rw [isDisposed, List.getElem?_eq_getElem h, Option.any_some]
  constructor
  · exact fun hlive => ⟨_, List.getElem?_eq_getElem h, hlive⟩
  · rintro ⟨r, hr, hlive⟩
    rw [List.getElem?_eq_getElem h] at hr
    rwa [Option.some.inj hr]

/-! ### Who is listed -/

theorem Projected.mem_providersFor (hl : Projected ids l) {p : ProviderRef} :
    p ∈ l.registry.providersFor k ↔ ∃ handle r, l.Live handle r ∧ k ∈ r.kinds ∧ r.provider = p := by
  rw [hl.listed, liveFor, List.mem_map]
  constructor
  · rintro ⟨r, hr, rfl⟩
    obtain ⟨hmem, hlive⟩ := List.mem_filter.mp hr
    obtain ⟨handle, hget⟩ := List.mem_iff_getElem?.mp hmem
    have hlive' : r.disposed = false ∧ k ∈ r.kinds := by simpa using hlive
    exact ⟨handle, r, ⟨hget, hlive'.1⟩, hlive'.2, rfl⟩
  · rintro ⟨handle, r, ⟨hget, hlive⟩, hk, rfl⟩
    exact ⟨r, List.mem_filter.mpr ⟨List.mem_of_getElem? hget, by simp [hlive, hk]⟩, rfl⟩

/-- For one kind no provider has two live registrations. -/
theorem Projected.live_unique (hl : Projected ids l) (hr : l.Live handle r) (hq : l.Live other q) (hkr : k ∈ r.kinds)
    (hkq : k ∈ q.kinds) (hindex : r.provider.index = q.provider.index) : handle = other := by
  have hnodup : l.registrations.Pairwise fun r q => r.disposed = false → k ∈ r.kinds → q.disposed = false → k ∈ q.kinds →
      r.provider.id ≠ q.provider.id := by
    have hids := hl.nodup k
    rw [hl.listed, liveFor, List.map_map, List.Nodup, List.pairwise_map, List.pairwise_filter] at hids
    refine hids.imp fun h hr hkr hq hkq => h (by simp [hr, hkr]) (by simp [hq, hkq])
  have hid : r.provider.id = q.provider.id := by
    rw [hl.stable r (List.mem_of_getElem? hr.1), hl.stable q (List.mem_of_getElem? hq.1), hindex]
  obtain ⟨hlt, hget⟩ := List.getElem?_eq_some_iff.mp hr.1
  obtain ⟨hlt', hget'⟩ := List.getElem?_eq_some_iff.mp hq.1
  have hpairwise := List.pairwise_iff_getElem.mp hnodup
  rcases Nat.lt_trichotomy handle other with h | h | h
  · refine absurd hid ?_
    rw [← hget, ← hget']
    exact hpairwise handle other hlt hlt' h (by rw [hget, hr.2]) (by rw [hget]; exact hkr) (by rw [hget', hq.2])
      (by rw [hget']; exact hkq)
  · exact h
  · refine absurd hid.symm ?_
    rw [← hget, ← hget']
    exact hpairwise other handle hlt' hlt h (by rw [hget', hq.2]) (by rw [hget']; exact hkq) (by rw [hget, hr.2])
      (by rw [hget]; exact hkr)

/-! ### One handle -/

theorem dispose_registrations (l : Ledger Callback) (handle : Nat) :
    (l.dispose handle).1.registrations = l.registrations.modify handle fun r =>
      if r.disposed then r else { r with disposed := true, callbacks := [] } := by
  refine List.ext_getElem? fun i => ?_
  rw [List.getElem?_modify]
  unfold dispose
  cases hget : l.registrations[handle]? with
  | none =>
    by_cases hi : handle = i
    · rw [← hi, hget]
      rfl
    · simp [hi]
  | some r =>
    cases hr : r.disposed with
    | true =>
      by_cases hi : handle = i
      · simp [← hi, hget, hr]
      · simp [hi, hr]
    | false =>
      simp only [Bool.false_eq_true, if_false, List.getElem?_modify, hr]
      by_cases hi : handle = i
      · simp [← hi, hget, hr]
      · simp [hi]

theorem length_dispose (l : Ledger Callback) (handle : Nat) :
    (l.dispose handle).1.registrations.length = l.registrations.length := by
  rw [dispose_registrations, List.length_modify]

theorem getElem?_dispose (hne : other ≠ handle) :
    (l.dispose handle).1.registrations[other]? = l.registrations[other]? := by
  rw [dispose_registrations, List.getElem?_modify_ne _ _ hne.symm]

/-- **Disposing of a handle** ends the registration at it, and no other. -/
theorem live_dispose : (l.dispose handle).1.Live other r ↔ other ≠ handle ∧ l.Live other r := by
  by_cases hne : other = handle
  · subst hne
    refine iff_of_false ?_ fun h => h.1 rfl
    rintro ⟨hget, hlive⟩
    rw [dispose_registrations, List.getElem?_modify_eq, Option.map_eq_map, Option.map_eq_some_iff] at hget
    obtain ⟨q, -, rfl⟩ := hget
    split at hlive
    · next hq => exact absurd hlive (by simp [hq])
    · cases hlive
  · rw [Live, getElem?_dispose hne]
    exact ⟨fun h => ⟨hne, h⟩, fun h => h.2⟩

/-- What is disposed of has the same provider as before. -/
theorem provider_dispose (l : Ledger Callback) (handle other : Nat) :
    ((l.dispose handle).1.registrations[other]?).map (·.provider) = (l.registrations[other]?).map (·.provider) := by
  rw [dispose_registrations, List.getElem?_modify, Option.map_eq_map, Option.map_map]
  refine congrArg (Option.map · l.registrations[other]?) (funext fun r => ?_)
  simp only [Function.comp_apply]
  split <;> try split
  all_goals rfl

theorem disposedBy_cases (h : l.Live handle r) :
    l.disposedBy (.dispose handle) = none ∨ l.disposedBy (.dispose handle) = some r.provider.index := by
  rw [disposedBy_of_live h.1 h.2]
  split
  · exact .inl rfl
  · exact .inr rfl

/-! ### Many handles -/

/-- The ledger after disposing of handles one after another. -/
def disposeEach (l : Ledger Callback) (hs : List Nat) : Ledger Callback := hs.foldl (fun l handle => (l.dispose handle).1) l

/-- The providers that are disposed of meanwhile, in order. -/
def disposedByEach (l : Ledger Callback) : List Nat → List Nat
  | [] => []
  | handle :: hs => (l.disposedBy (.dispose handle)).toList ++ (l.dispose handle).1.disposedByEach hs

theorem disposeEach_cons (l : Ledger Callback) (handle : Nat) (hs : List Nat) :
    l.disposeEach (handle :: hs) = (l.dispose handle).1.disposeEach hs := rfl

theorem Projected.disposeEach (hl : Projected ids l) (hs : List Nat) : Projected ids (l.disposeEach hs) := by
  induction hs generalizing l with
  | nil => exact hl
  | cons handle hs ih => exact ih (hl.dispose handle)

theorem length_disposeEach (l : Ledger Callback) (hs : List Nat) :
    (l.disposeEach hs).registrations.length = l.registrations.length := by
  induction hs generalizing l with
  | nil => rfl
  | cons handle hs ih => rw [disposeEach_cons, ih, length_dispose]

theorem getElem?_disposeEach (h : other ∉ hs) :
    (l.disposeEach hs).registrations[other]? = l.registrations[other]? := by
  induction hs generalizing l with
  | nil => rfl
  | cons handle hs ih =>
    rw [List.mem_cons, not_or] at h
    rw [disposeEach_cons, ih h.2, getElem?_dispose h.1]

theorem live_disposeEach : (l.disposeEach hs).Live other r ↔ other ∉ hs ∧ l.Live other r := by
  induction hs generalizing l with
  | nil => simp [disposeEach]
  | cons handle hs ih =>
    rw [disposeEach_cons, ih, live_dispose, List.mem_cons, not_or]
    exact ⟨fun ⟨hnot, hne, h⟩ => ⟨⟨hne, hnot⟩, h⟩, fun ⟨⟨hne, hnot⟩, h⟩ => ⟨hnot, hne, h⟩⟩

/-- The providers of the registrations at the handles. -/
def providersAt (l : Ledger Callback) (hs : List Nat) : List Nat :=
  hs.filterMap fun handle => (l.registrations[handle]?).map (·.provider.index)

theorem providersAt_dispose (l : Ledger Callback) (handle : Nat) (hs : List Nat) :
    (l.dispose handle).1.providersAt hs = l.providersAt hs := by
  refine List.filterMap_congr fun other _ => ?_
  have h := congrArg (Option.map ProviderRef.index) (provider_dispose l handle other)
  rwa [Option.map_map, Option.map_map] at h

/-- Every handle disposes of its own provider or of none. -/
theorem disposedByEach_sublist (l : Ledger Callback) (hs : List Nat) :
    (l.disposedByEach hs).Sublist (l.providersAt hs) := by
  induction hs generalizing l with
  | nil => exact .slnil
  | cons handle hs ih =>
    have hrest := providersAt_dispose l handle hs ▸ ih (l.dispose handle).1
    have hfirst : (l.disposedBy (.dispose handle)).toList.Sublist (l.providersAt [handle]) := by
      by_cases hlive : ∃ r, l.Live handle r
      · obtain ⟨r, hr⟩ := hlive
        have hat : l.providersAt [handle] = [r.provider.index] := by simp [providersAt, hr.1]
        rw [hat]
        rcases disposedBy_cases hr with h | h <;> rw [h]
        · exact List.nil_sublist _
        · exact List.Sublist.refl _
      · rw [disposedBy_of_not_live (not_live (not_exists.mp hlive))]
        exact List.nil_sublist _
    have hcons : l.providersAt (handle :: hs) = l.providersAt [handle] ++ l.providersAt hs :=
      List.filterMap_append (l := [handle])
    rw [hcons]
    exact hfirst.append hrest

/-- Some live registration is one of the provider. -/
def Holds (l : Ledger Callback) (provider : Nat) : Prop := ∃ handle r, l.Live handle r ∧ r.provider.index = provider

/-- All that a provider has is among the handles, and for some kind each. -/
def Within (l : Ledger Callback) (provider : Nat) (hs : List Nat) : Prop :=
  ∀ handle r, l.Live handle r → r.provider.index = provider → handle ∈ hs ∧ r.kinds ≠ []

variable {provider : Nat}

theorem Within.dispose (h : l.Within provider (handle :: hs)) : (l.dispose handle).1.Within provider hs := by
  intro other q hq hindex
  obtain ⟨hne, hq⟩ := live_dispose.mp hq
  obtain ⟨hmem, hkinds⟩ := h other q hq hindex
  exact ⟨(List.mem_cons.mp hmem).resolve_left hne, hkinds⟩

/-- A registration that is left, for some kind, keeps the provider. -/
theorem Within.disposedBy_kept (hl : Projected ids l) (h : l.Within provider (handle :: hs)) (hr : l.Live handle r)
    (hindex : r.provider.index = provider) (hleft : (l.dispose handle).1.Holds provider) :
    l.disposedBy (.dispose handle) = none := by
  obtain ⟨other, q, hq, hqindex⟩ := hleft
  obtain ⟨hne, hq⟩ := live_dispose.mp hq
  refine (disposedBy_cases hr).resolve_right fun hgone => (h other q hq hqindex).2 ?_
  exact (disposedBy_eq_some hl hr.1 hr.2).mp hgone other q hne hq.1 hq.2 (hqindex.trans hindex.symm)

/-- The last registration takes its provider with it. -/
theorem disposedBy_last (hl : Projected ids l) (hr : l.Live handle r) (hindex : r.provider.index = provider)
    (hlast : ¬ (l.dispose handle).1.Holds provider) : l.disposedBy (.dispose handle) = some provider := by
  rw [← hindex]
  refine (disposedBy_eq_some hl hr.1 hr.2).mpr fun other q hne hq hlive hqindex => ?_
  exact absurd ⟨other, q, live_dispose.mpr ⟨hne, hq, hlive⟩, hqindex.trans hindex⟩ hlast

/-- A handle that is not live, or one of another provider, leaves the provider alone. -/
theorem disposedBy_other (h : ∀ r, l.Live handle r → r.provider.index ≠ provider) :
    l.disposedBy (.dispose handle) ≠ some provider := by
  intro hgone
  obtain ⟨_, r, heq, hget, hlive, hindex⟩ := live_of_disposedBy hgone
  cases heq
  exact h r ⟨hget, hlive⟩ hindex

/-- **A provider goes once**, with the last of its registrations, if it has any and all of them go; else not at all. -/
theorem count_disposedByEach (hl : Projected ids l) (hwithin : l.Within provider hs) :
    (l.Holds provider → (l.disposedByEach hs).count provider = 1) ∧
      (¬ l.Holds provider → (l.disposedByEach hs).count provider = 0) := by
  induction hs generalizing l with
  | nil => exact ⟨fun ⟨handle, r, hr, hindex⟩ => absurd (hwithin handle r hr hindex).1 List.not_mem_nil, fun _ => rfl⟩
  | cons handle hs ih =>
    obtain ⟨hone, hzero⟩ := ih (hl.dispose handle) hwithin.dispose
    have hfewer : (l.dispose handle).1.Holds provider → l.Holds provider := fun ⟨other, q, hq, hindex⟩ =>
      ⟨other, q, (live_dispose.mp hq).2, hindex⟩
    rw [disposedByEach, List.count_append]
    by_cases hmine : ∃ r, l.Live handle r ∧ r.provider.index = provider
    · obtain ⟨r, hr, hindex⟩ := hmine
      refine ⟨fun _ => ?_, fun hnone => absurd ⟨handle, r, hr, hindex⟩ hnone⟩
      by_cases hleft : (l.dispose handle).1.Holds provider
      · rw [hwithin.disposedBy_kept hl hr hindex hleft, hone hleft]
        rfl
      · rw [disposedBy_last hl hr hindex hleft, hzero hleft]
        simp
    · have hnot : (l.disposedBy (.dispose handle)).toList.count provider = 0 := by
        refine List.count_eq_zero.mpr fun hmem => ?_
        exact disposedBy_other (fun r hr hindex => hmine ⟨r, hr, hindex⟩) (Option.mem_toList.mp hmem)
      rw [hnot, Nat.zero_add]
      refine ⟨fun ⟨other, q, hq, hindex⟩ => hone ⟨other, q, live_dispose.mpr ⟨?_, hq⟩, hindex⟩,
        fun hnone => hzero (mt hfewer hnone)⟩
      rintro rfl
      exact hmine ⟨q, hq, hindex⟩

end Ledger

end Orchestra
