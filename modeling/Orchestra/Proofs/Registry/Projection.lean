import Mathlib.Data.Finset.Card
import Orchestra.Proofs.Registry.Listing
import Orchestra.Scenario.Registry

/-!
# Orchestra.Proofs.Registry.Projection — the lists are those of the live registrations

A ledger is driven by acts: registrations, which may be refused, and disposals, in any order.  Whatever was done, the list
of a kind is that of the providers of the registrations for it that were not disposed of, in the order in which they were
made (`Projected`, kept by every act).  A provider keeps its id, but it may declare something else each time.
-/

namespace Orchestra

namespace Registry

/-- The kinds asked for, in order and with repetitions: those given, or else all that are declared and fan out. -/
def asked (p : ProviderRef) (kinds : Option (List Capability)) : List Capability :=
  kinds.getD (Capability.all.filter fun k => p.capabilities.contains k && k.fansOut)

/-- A provider of the same id is on the list of the kind. -/
def hasId (r : Registry) (p : ProviderRef) (kind : Capability) : Bool := (r.providersFor kind).any (·.id == p.id)

theorem selection_nodup (p : ProviderRef) (kinds : Option (List Capability)) : (selection p kinds).Nodup := by
  cases kinds with
  | none => exact List.Nodup.filter (p := fun k => p.capabilities.contains k && k.fansOut) (by decide)
  | some kinds => exact nodup_eraseDups kinds

theorem find?_selection (p : ProviderRef) (kinds : Option (List Capability)) (q : Capability → Bool) :
    (selection p kinds).find? q = (asked p kinds).find? q := by
  cases kinds with
  | none => rfl
  | some kinds => exact find?_eraseDups q kinds

theorem mem_selection {p : ProviderRef} {kinds : Option (List Capability)} {k : Capability} :
    k ∈ selection p kinds ↔ k ∈ asked p kinds := by
  cases kinds with
  | none => rfl
  | some kinds => exact List.mem_eraseDups

variable {r r' : Registry} {p : ProviderRef} {kinds : Option (List Capability)} {selected : List Capability}

/-- Kinds that are not declared are reported first, then ids that are taken, each by the first kind asked for. -/
theorem register_eq_of_undeclared {k : Capability}
    (h : (asked p kinds).find? (!p.capabilities.contains ·) = some k) :
    r.register p kinds = .error (.unsupported k (some
      ("Provider '" ++ p.id ++ "' does not declare capability '" ++ k.value ++ "'"))) := by
  simp only [register, find?_selection, h]

theorem register_eq_of_taken {k : Capability} (hd : (asked p kinds).find? (!p.capabilities.contains ·) = none)
    (h : (asked p kinds).find? (r.hasId p) = some k) :
    r.register p kinds = .error (.duplicateProvider p.id k) := by
  have h' : (asked p kinds).find? (fun k => (r.providersFor k).any (·.id == p.id)) = some k := h
  simp only [register, find?_selection, hd, h']

theorem register_eq_ok (hd : (asked p kinds).find? (!p.capabilities.contains ·) = none)
    (h : (asked p kinds).find? (r.hasId p) = none) :
    r.register p kinds = .ok (⟨(selection p kinds).foldl (append · p) r.lists⟩, selection p kinds) := by
  have h' : (asked p kinds).find? (fun k => (r.providersFor k).any (·.id == p.id)) = none := h
  simp only [register, find?_selection, hd, h']

theorem register_ok (h : r.register p kinds = .ok (r', selected)) :
    r' = ⟨selected.foldl (append · p) r.lists⟩ ∧ selected = selection p kinds ∧
      ∀ k ∈ selected, ∀ q ∈ r.providersFor k, q.id ≠ p.id := by
  cases hd : (asked p kinds).find? (!p.capabilities.contains ·) with
  | some k => rw [register_eq_of_undeclared hd] at h; simp at h
  | none =>
    cases hf : (asked p kinds).find? (r.hasId p) with
    | some k => rw [register_eq_of_taken hd hf] at h; simp at h
    | none =>
      rw [register_eq_ok hd hf] at h
      obtain ⟨rfl, rfl⟩ := Prod.mk.inj (Except.ok.inj h)
      refine ⟨rfl, rfl, fun k hk q hq hid => ?_⟩
      have hno := List.find?_eq_none.mp hf k (mem_selection.mp hk)
      exact hno (List.any_eq_true.mpr ⟨q, hq, by simpa using hid⟩)

end Registry

namespace Ledger

variable {Callback : Type}

/-- What can be done to a ledger.  Providers are known by their identity; what they declare may change. -/
inductive Act (Callback : Type) where
  | register (provider : Nat) (capabilities : List Capability) (kinds : Option (List Capability))
  | dispose (handle : Nat)
  | onDispose (handle : Nat) (callback : Callback)

/-- The ledger after an act; a registration that is refused leaves it as it is. -/
def act (ids : Nat → String) (l : Ledger Callback) : Act Callback → Ledger Callback
  | .register provider capabilities kinds =>
    match l.register ⟨provider, ids provider, capabilities⟩ kinds with
    | .ok (l', _) => l'
    | .error _ => l
  | .dispose handle => (l.dispose handle).1
  | .onDispose handle callback => l.onDispose handle callback

/-- The ledger after acts, one by one, from an empty one. -/
def after (ids : Nat → String) (acts : List (Act Callback)) : Ledger Callback := acts.foldl (act ids) {}

/-- The registrations not yet disposed of. -/
def live (l : Ledger Callback) : List (Registration Callback) := l.registrations.filter (!·.disposed)

/-- The providers of the live registrations for a kind. -/
def liveFor (rs : List (Registration Callback)) (kind : Capability) : List ProviderRef :=
  (rs.filter fun r => !r.disposed && r.kinds.contains kind).map (·.provider)

/-- The lists are those of the live registrations, and ids are never listed twice for a kind. -/
structure Projected (ids : Nat → String) (l : Ledger Callback) : Prop where
  tidy : Registry.Tidy l.registry.lists
  listed : ∀ k, l.registry.providersFor k = liveFor l.registrations k
  nodup : ∀ k, ((l.registry.providersFor k).map (·.id)).Nodup
  stable : ∀ r ∈ l.registrations, r.provider.id = ids r.provider.index

variable {ids : Nat → String} {l l' : Ledger Callback}

theorem liveFor_append (rs rs' : List (Registration Callback)) (k : Capability) :
    liveFor (rs ++ rs') k = liveFor rs k ++ liveFor rs' k := by
  simp [liveFor]

theorem liveFor_cons (r : Registration Callback) (rs : List (Registration Callback)) (k : Capability) :
    liveFor (r :: rs) k = (if r.disposed = false ∧ k ∈ r.kinds then [r.provider] else []) ++ liveFor rs k := by
  unfold liveFor
  by_cases h : r.disposed = false ∧ k ∈ r.kinds
  · simp [h.1, h.2]
  · rw [if_neg h, List.filter_cons_of_neg (by simpa using h), List.nil_append]

/-- Callbacks are not what the lists depend on. -/
theorem liveFor_modify (rs : List (Registration Callback)) (handle : Nat)
    (f : List Callback → List Callback) (k : Capability) :
    liveFor (rs.modify handle fun r => { r with callbacks := f r.callbacks }) k = liveFor rs k := by
  induction rs generalizing handle with
  | nil => simp
  | cons r rest ih =>
    cases handle with
    | zero => simp [liveFor_cons]
    | succ n => rw [List.modify_succ_cons, liveFor_cons, liveFor_cons, ih]

theorem projected_empty : Projected ids ({} : Ledger Callback) :=
  ⟨⟨by simp, by simp⟩, fun _ => rfl, fun _ => by simp [Registry.providersFor], by simp⟩

/-! ### Registering -/

theorem register_ok {p : ProviderRef} {kinds : Option (List Capability)} {handle : Nat}
    (h : l.register p kinds = .ok (l', handle)) :
    ∃ r' selected, l.registry.register p kinds = .ok (r', selected) ∧ handle = l.registrations.length ∧
      l' = ⟨r', l.registrations ++ [{ provider := p, kinds := selected }]⟩ := by
  unfold register at h
  cases hr : l.registry.register p kinds with
  | error f => rw [hr] at h; cases h
  | ok res =>
    obtain ⟨r', selected⟩ := res
    rw [hr] at h
    cases h
    exact ⟨r', selected, rfl, rfl, rfl⟩

theorem Projected.register {p : ProviderRef} {kinds : Option (List Capability)} {handle : Nat}
    (hl : Projected ids l) (hp : p.id = ids p.index) (h : l.register p kinds = .ok (l', handle)) :
    Projected ids l' := by
  obtain ⟨r', selected, hr, -, rfl⟩ := register_ok h
  obtain ⟨rfl, hsel, hfree⟩ := Registry.register_ok hr
  have hnodup : selected.Nodup := hsel ▸ Registry.selection_nodup p kinds
  have hlisted : ∀ k, (⟨selected.foldl (Registry.append · p) l.registry.lists⟩ : Registry).providersFor k =
      l.registry.providersFor k ++ if k ∈ selected then [p] else [] :=
    fun _ => Registry.listed_foldl_append hnodup
  refine ⟨hl.tidy.foldl_append selected, fun k => ?_, fun k => ?_, fun r hmem => ?_⟩
  · rw [hlisted, hl.listed, liveFor_append, liveFor_cons]
    simp [liveFor]
  · rw [hlisted]
    by_cases hk : k ∈ selected
    · rw [if_pos hk, List.map_append, List.nodup_append]
      refine ⟨hl.nodup k, by simp, ?_⟩
      intro a ha b hb
      obtain ⟨q, hq, rfl⟩ := List.mem_map.mp ha
      rw [List.map_singleton, List.mem_singleton] at hb
      exact hb ▸ hfree k hk q hq
    · rw [if_neg hk, List.append_nil]
      exact hl.nodup k
  · rcases List.mem_append.mp hmem with hmem | hmem
    · exact hl.stable r hmem
    · rw [List.mem_singleton.mp hmem]
      exact hp

/-! ### Disposing -/

/-- A handle that is live splits the registrations around it, and disposing of it marks it in its place. -/
theorem dispose_live {handle : Nat} {r : Registration Callback} (h : l.registrations[handle]? = some r)
    (hr : r.disposed = false) :
    ∃ before later, l.registrations = before ++ r :: later ∧
      (l.dispose handle).1 = ⟨l.registry.unregister r.provider r.kinds,
        before ++ { r with disposed := true, callbacks := [] } :: later⟩ := by
  obtain ⟨hlt, hget⟩ := List.getElem?_eq_some_iff.mp h
  refine ⟨l.registrations.take handle, l.registrations.drop (handle + 1), ?_, ?_⟩
  · rw [← hget, List.getElem_cons_drop, List.take_append_drop]
  · unfold dispose
    rw [h]
    simp only [hr, Bool.false_eq_true, if_false]
    rw [List.modify_eq_take_cons_drop hlt, hget]

theorem dispose_of_disposed {handle : Nat} (h : ∀ r, l.registrations[handle]? = some r → r.disposed = true) :
    (l.dispose handle).1 = l := by
  unfold dispose
  cases hr : l.registrations[handle]? with
  | none => rfl
  | some r => simp [h r hr]

/-- Taking a provider off a list where its id stands once leaves the others in order. -/
theorem filter_index_of_nodup {before later : List ProviderRef} {p : ProviderRef}
    (hn : ((before ++ p :: later).map (·.id)).Nodup)
    (hs : ∀ q ∈ before ++ p :: later, q.index = p.index → q.id = p.id) :
    (before ++ p :: later).filter (·.index != p.index) = before ++ later := by
  have hother : ∀ q ∈ before ++ later, (q.index != p.index) = true := by
    intro q hq
    rw [bne_iff_ne]
    intro hi
    rw [List.map_append, List.map_cons, List.nodup_middle, List.nodup_cons] at hn
    refine hn.1 ?_
    have hid : q.id = p.id := hs q (by grind) hi
    rw [← hid, ← List.map_append]
    exact List.mem_map_of_mem hq
  rw [List.filter_append, List.filter_cons_of_neg (by simp), ← List.filter_append]
  exact List.filter_eq_self.mpr hother

theorem Projected.dispose (hl : Projected ids l) (handle : Nat) : Projected ids (l.dispose handle).1 := by
  by_cases hd : ∀ r, l.registrations[handle]? = some r → r.disposed = true
  · rw [dispose_of_disposed hd]; exact hl
  · push Not at hd
    obtain ⟨r, hget, hr⟩ := hd
    have hlive : r.disposed = false := by simpa using hr
    obtain ⟨before, later, hsplit, heq⟩ := dispose_live hget hlive
    rw [heq]
    have hstable : ∀ q ∈ l.registrations, q.provider.id = ids q.provider.index := hl.stable
    -- the list of a kind of the handle, split where its provider stands
    have hkind : ∀ k, k ∈ r.kinds →
        l.registry.providersFor k = liveFor before k ++ r.provider :: liveFor later k := by
      intro k hk
      rw [hl.listed, hsplit, liveFor_append, liveFor_cons, if_pos ⟨hlive, hk⟩]
      rfl
    have hlisted : ∀ k, (l.registry.unregister r.provider r.kinds).providersFor k =
        liveFor before k ++ liveFor later k := by
      intro k
      refine (Registry.listed_foldl_withdraw hl.tidy r.kinds).trans ?_
      by_cases hk : k ∈ r.kinds
      · rw [if_pos hk]
        refine (congrArg _ (hkind k hk)).trans (filter_index_of_nodup (hkind k hk ▸ hl.nodup k) ?_)
        intro q hq hi
        have hmem : ∀ q ∈ liveFor before k ++ r.provider :: liveFor later k, q.id = ids q.index := by
          intro q hq
          rw [← hkind k hk, hl.listed] at hq
          obtain ⟨q', hq', rfl⟩ := List.mem_map.mp hq
          exact hstable q' (List.mem_filter.mp hq').1
        rw [hmem q hq, hi, ← hmem r.provider (by simp)]
      · rw [if_neg hk]
        refine (hl.listed k).trans ?_
        rw [hsplit, liveFor_append, liveFor_cons, if_neg (fun h => hk h.2)]
        rfl
    refine ⟨hl.tidy.foldl_withdraw r.kinds, fun k => ?_, fun k => ?_, fun q hq => ?_⟩
    · rw [hlisted, liveFor_append, liveFor_cons]
      simp
    · rw [hlisted]
      have hn := hl.nodup k
      rw [hl.listed, hsplit, liveFor_append, liveFor_cons] at hn
      refine hn.sublist (List.Sublist.map _ ?_)
      exact (List.Sublist.refl _).append (List.sublist_append_right _ _)
    · rcases List.mem_append.mp hq with hq | hq
      · exact hstable q (hsplit ▸ List.mem_append_left _ hq)
      · rcases List.mem_cons.mp hq with rfl | hq
        · exact hstable r (by rw [hsplit]; simp)
        · exact hstable q (by rw [hsplit]; simp [hq])

theorem Projected.onDispose (hl : Projected ids l) (handle : Nat) (callback : Callback) :
    Projected ids (l.onDispose handle callback) := by
  refine ⟨hl.tidy, fun k => ?_, hl.nodup, fun r hr => ?_⟩
  · rw [Ledger.onDispose, liveFor_modify _ _ (· ++ [callback])]
    exact hl.listed k
  · obtain ⟨i, hi, rfl⟩ := List.mem_iff_getElem.mp hr
    have hi' : i < l.registrations.length := by simpa [Ledger.onDispose] using hi
    have hs := hl.stable _ (List.getElem_mem hi')
    simp only [Ledger.onDispose, List.getElem_modify]
    split <;> exact hs

/-! ### Runs -/

theorem Projected.act (hl : Projected ids l) (a : Act Callback) : Projected ids (l.act ids a) := by
  cases a with
  | register provider capabilities kinds =>
    simp only [Ledger.act]
    cases h : l.register ⟨provider, ids provider, capabilities⟩ kinds with
    | error f => exact hl
    | ok res => exact hl.register rfl h
  | dispose handle => exact hl.dispose handle
  | onDispose handle callback => exact hl.onDispose handle callback

theorem projected_after (ids : Nat → String) (acts : List (Act Callback)) : Projected ids (after ids acts) := by
  suffices ∀ l, Projected ids l → Projected ids (acts.foldl (act ids) l) from this _ projected_empty
  induction acts with
  | nil => exact fun l hl => hl
  | cons a acts ih => exact fun l hl => ih _ (hl.act a)

/-- How many providers are on any list. -/
theorem Projected.size (hl : Projected ids l) :
    ∃ listed : Finset Nat, (∀ i, i ∈ listed ↔ ∃ k, ∃ p ∈ l.registry.providersFor k, p.index = i) ∧
      l.registry.size = listed.card := by
  refine ⟨(l.registry.all.map ProviderRef.index).eraseDups.toFinset, fun i => ?_,
    (List.toFinset_card_of_nodup (nodup_eraseDups _)).symm⟩
  simp only [List.mem_toFinset, List.mem_eraseDups, List.mem_map, Registry.mem_all_iff hl.tidy]
  constructor
  · rintro ⟨p, ⟨k, hp⟩, rfl⟩
    exact ⟨k, p, hp, rfl⟩
  · rintro ⟨k, p, hp, rfl⟩
    exact ⟨p, ⟨k, hp⟩, rfl⟩

/-- A refused registration is refused for what it asks for: an undeclared kind, or else an id that is taken. -/
theorem register_refused {p : ProviderRef} {kinds : Option (List Capability)} {f : Fault} :
    l.register p kinds = .error f ↔
      (∃ k, (Registry.asked p kinds).find? (!p.capabilities.contains ·) = some k ∧
        f = .unsupported k (some ("Provider '" ++ p.id ++ "' does not declare capability '" ++ k.value ++ "'"))) ∨
      ((Registry.asked p kinds).find? (!p.capabilities.contains ·) = none ∧
        ∃ k, (Registry.asked p kinds).find? (l.registry.hasId p) = some k ∧ f = .duplicateProvider p.id k) := by
  unfold register
  cases hd : (Registry.asked p kinds).find? (!p.capabilities.contains ·) with
  | some k =>
    rw [Registry.register_eq_of_undeclared hd]
    simp [bind, Except.bind, eq_comm]
  | none =>
    cases ht : (Registry.asked p kinds).find? (l.registry.hasId p) with
    | some k =>
      rw [Registry.register_eq_of_taken hd ht]
      simp [bind, Except.bind, eq_comm]
    | none =>
      rw [Registry.register_eq_ok hd ht]
      simp [bind, Except.bind, pure, Except.pure]

theorem find?_undeclared_eq_none {p : ProviderRef} {kinds : Option (List Capability)} :
    (Registry.asked p kinds).find? (!p.capabilities.contains ·) = none ↔
      ∀ k ∈ Registry.asked p kinds, k ∈ p.capabilities := by
  simp [List.find?_eq_none]

theorem register_unsupported_iff {p : ProviderRef} {kinds : Option (List Capability)} :
    (∃ k text, l.register p kinds = .error (.unsupported k text)) ↔
      ∃ k ∈ Registry.asked p kinds, k ∉ p.capabilities := by
  constructor
  · rintro ⟨k, text, h⟩
    rcases register_refused.mp h with ⟨k', hk', -⟩ | ⟨-, k', -, h'⟩
    · exact ⟨k', List.mem_of_find?_eq_some hk', by simpa using List.find?_some hk'⟩
    · cases h'
  · rintro ⟨k, hk, hno⟩
    cases hd : (Registry.asked p kinds).find? (!p.capabilities.contains ·) with
    | none => exact absurd (find?_undeclared_eq_none.mp hd k hk) hno
    | some k' => exact ⟨k', _, register_refused.mpr (Or.inl ⟨k', hd, rfl⟩)⟩

theorem register_duplicate_iff {p : ProviderRef} {kinds : Option (List Capability)} {id : String} {k : Capability} :
    l.register p kinds = .error (.duplicateProvider id k) ↔
      id = p.id ∧ (∀ k ∈ Registry.asked p kinds, k ∈ p.capabilities) ∧
        (Registry.asked p kinds).find? (l.registry.hasId p) = some k := by
  constructor
  · intro h
    rcases register_refused.mp h with ⟨k', -, h'⟩ | ⟨hd, k', hk', h'⟩
    · cases h'
    · cases h'
      exact ⟨rfl, find?_undeclared_eq_none.mp hd, hk'⟩
  · rintro ⟨rfl, hd, hk⟩
    exact register_refused.mpr (Or.inr ⟨find?_undeclared_eq_none.mpr hd, k, hk, rfl⟩)

/-- There are no other reasons to refuse a registration. -/
theorem refused_cases {p : ProviderRef} {kinds : Option (List Capability)} {f : Fault}
    (h : l.register p kinds = .error f) :
    (∃ k text, f = .unsupported k text) ∨ ∃ k, f = .duplicateProvider p.id k := by
  rcases register_refused.mp h with ⟨k, -, h'⟩ | ⟨-, k, -, h'⟩
  · exact Or.inl ⟨k, _, h'⟩
  · exact Or.inr ⟨k, h'⟩

/-- **Projection.**  After any acts the list of a kind is that of its live registrations, in the order in which they were
made, with no id twice; `isEnabled` and `size` are read off the lists; and a registration is refused exactly for a kind
that is not declared, or else for the first kind asked for where the id is taken, and then changes no list. -/
theorem after_projects_live (ids : Nat → String) (acts : List (Act Callback)) :
    let l := after ids acts
    (∀ k, l.registry.providersFor k = (l.live.filter (·.kinds.contains k)).map (·.provider)) ∧
    (∀ k, ((l.registry.providersFor k).map (·.id)).Nodup) ∧
    (l.registry.isEnabled = true ↔ ∃ k, l.registry.providersFor k ≠ []) ∧
    (∃ listed : Finset Nat, (∀ i, i ∈ listed ↔ ∃ k, ∃ p ∈ l.registry.providersFor k, p.index = i) ∧
      l.registry.size = listed.card) ∧
    ∀ (provider : Nat) (capabilities : List Capability) (kinds : Option (List Capability)),
      let p : ProviderRef := ⟨provider, ids provider, capabilities⟩
      let asked := Registry.asked p kinds
      ((∃ k text, l.register p kinds = .error (.unsupported k text)) ↔ ∃ k ∈ asked, k ∉ capabilities) ∧
      (∀ id k, l.register p kinds = .error (.duplicateProvider id k) ↔
        id = p.id ∧ (∀ k ∈ asked, k ∈ capabilities) ∧ asked.find? (l.registry.hasId p) = some k) ∧
      (∀ f, l.register p kinds = .error f →
        ((∃ k text, f = .unsupported k text) ∨ ∃ k, f = .duplicateProvider p.id k) ∧
        ∀ k, (l.act ids (.register provider capabilities kinds)).registry.providersFor k = l.registry.providersFor k) := by
  intro l
  have hl : Projected ids l := projected_after ids acts
  refine ⟨fun k => ?_, hl.nodup, Registry.isEnabled_iff hl.tidy, hl.size, fun provider capabilities kinds => ?_⟩
  · rw [hl.listed, liveFor, live, List.filter_filter]
    simp only [Bool.and_comm]
  · intro p asked
    refine ⟨register_unsupported_iff, fun id k => register_duplicate_iff, fun f h => ⟨refused_cases h, fun k => ?_⟩⟩
    simp only [act, p] at h ⊢
    rw [h]

/-- One id in two kinds, a provider with two registrations, and a registration refused for its second kind. -/
example :
    let l := after (fun i => if i = 2 then "b" else "a") [
      .register 0 [.chat, .codeEdit] (some [.chat]), .register 1 [.chat, .codeEdit] (some [.codeEdit]),
      .register 2 [.chat, .codeEdit] none, .register 0 [.chat, .codeEdit] (some [.codeCompletion]),
      .register 3 [.explanation, .chat] (some [.explanation, .chat]), .dispose 1, .dispose 1,
      (.register 0 [.codeEdit] none : Act Unit), .dispose 0]
    (l.registry.providersFor .chat).map (·.index) = [2] ∧ (l.registry.providersFor .codeEdit).map (·.index) = [2, 0] ∧
      l.registry.providersFor .explanation = [] ∧ l.registry.size = 2 := by
  decide

end Ledger

/-! ### Scenarios -/

namespace Scenario.Registry

open Ledger (Projected)

/-- The ids of the providers, which no step changes. -/
def State.idOf (s : State) (provider : Nat) : String := (s.providers[provider]?).elim "" (·.id)

variable {s : State}

theorem State.runCallbacks_projected (handle : Nat) (cs : List Callback) (h : Projected s.idOf s.ledger) :
    Projected (s.runCallbacks handle cs).1.idOf (s.runCallbacks handle cs).1.ledger := by
  induction cs generalizing s with
  | nil => exact h
  | cons c rest ih =>
    unfold State.runCallbacks
    cases c.reaction with
    | none => exact ih h
    | fails => exact h
    | disposes => exact ih (s := { s.log _ with ledger := _ }) (h.dispose handle)

theorem State.dispose_projected (handle : Nat) (h : Projected s.idOf s.ledger) :
    Projected (s.dispose handle).1.idOf (s.dispose handle).1.ledger := by
  have hd := h.dispose handle
  unfold State.dispose
  rcases hl : s.ledger.dispose handle with ⟨ledger, _ | d⟩
  · rw [hl] at hd
    exact hd
  · rw [hl] at hd
    have hc := State.runCallbacks_projected (s := { s with ledger }) handle d.callbacks hd
    simp only
    generalize State.runCallbacks { s with ledger } handle d.callbacks = res at hc ⊢
    obtain ⟨s', _ | f⟩ := res
    · simp only
      split <;> exact hc
    · exact hc

/-- Every step of a scenario keeps the lists those of the live registrations. -/
theorem State.step_projected (step : Step) (h : Projected s.idOf s.ledger) :
    Projected (s.step step).1.idOf (s.step step).1.ledger := by
  unfold State.step
  split
  · exact h
  · rename_i index name kinds
    split
    · exact h
    · rename_i p hp
      split
      · exact h
      · rename_i ledger handle hr
        refine h.register ?_ hr
        simp [State.idOf, Provider.ref, hp]
  · split
    · exact h
    · exact State.dispose_projected _ h
  · split
    · exact h
    · exact State.dispose_projected _ h
  · split
    · exact h
    · exact h.onDispose _ _

end Scenario.Registry

end Orchestra
