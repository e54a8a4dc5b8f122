import Orchestra.Proofs.Accounting.Occurrence
import Orchestra.Proofs.Registry.Release
import Orchestra.Proofs.Runs.Retention

/-!
# Orchestra.Proofs.Service.Custody — the registrations that a service keeps

A service keeps the handles that it was given and that are still live, and the only callback on them is its own
(`Custody`).  So a new registration is kept as well (`Custody.append`), disposing of a handle strikes it off
(`Custody.dispose_eq`), and closing disposes of exactly the handles kept, one after another, and ends with none
(`Custody.close_eq`).
-/

namespace Orchestra

/-- What disposing of a provider complains about. -/
def Provider.complaint : Provider → Option Fault
  | .scripted p => p.disposeFault
  | .bridge _ => none

namespace Clockwork

/-- A provider as it is seen from outside, with what disposing of it complains about. -/
def face (c : Clockwork) (index : Nat) : Option (ProviderRef × Option Fault) :=
  (c.providers[index]?).map fun p => (p.ref index, p.complaint)

/-- Providers are known by these ids, and none cancels the task that disposes of it. -/
def Orderly (ids : Nat → String) (c : Clockwork) : Prop :=
  ∀ index f, c.face index = some f → f.1.id = ids index ∧ f.2 ≠ some .interrupted

/-- Disposes of providers, one after another. -/
def disposeProviders (c : Clockwork) (indices : List Nat) : Clockwork :=
  indices.foldl (fun c index => (c.disposeProvider index).1) c

variable {c : Clockwork} {ids : Nat → String}

theorem face_disposeProvider (c : Clockwork) (index other : Nat) : (c.disposeProvider index).1.face other = c.face other := by
  unfold disposeProvider
  split
  · simp only [face, note, modifyScripted, log, List.getElem?_modify]
    cases c.providers[other]? with
    | none => rfl
    | some p => cases p <;> by_cases h : index = other <;> simp [h, Provider.ref, Provider.complaint]
  · simp only [face, modifyBridge, List.getElem?_modify]
    cases c.providers[other]? with
    | none => rfl
    | some p => cases p <;> by_cases h : index = other <;> simp [h, Provider.ref, Provider.complaint]
  · rfl

theorem disposeProvider_fault (c : Clockwork) (index : Nat) : (c.disposeProvider index).2 = (c.face index).bind Prod.snd := by
  unfold disposeProvider face
  cases c.providers[index]? with
  | none => rfl
  | some p => cases p <;> rfl

theorem Orderly.of_face {c' : Clockwork} (h : c.Orderly ids) (hface : ∀ index, c'.face index = c.face index) :
    c'.Orderly ids := fun index f hf => h index f ((hface index).symm.trans hf)

theorem Orderly.of_providers {c' : Clockwork} (h : c.Orderly ids) (hproviders : c'.providers = c.providers) :
    c'.Orderly ids := h.of_face fun index => by rw [face, face, hproviders]

theorem Orderly.disposeProvider (h : c.Orderly ids) (index : Nat) : (c.disposeProvider index).2 ≠ some .interrupted := by
  rw [disposeProvider_fault]
  intro hfault
  obtain ⟨f, hf, heq⟩ := Option.bind_eq_some_iff.mp hfault
  exact (h index f hf).2 heq

theorem face_disposeProviders (c : Clockwork) (indices : List Nat) (other : Nat) :
    (c.disposeProviders indices).face other = c.face other := by
  induction indices generalizing c with
  | nil => rfl
  | cons index indices ih => exact (ih _).trans (c.face_disposeProvider index other)

end Clockwork

namespace World

open Ledger (Projected)

variable {ids : Nat → String} {u v w : World} {made : List Nat} {handle : Nat}

/-! ### What the service keeps -/

/-- The handles that the service was given are in order; it keeps those that are live, and to strike a handle off is all
that there is to be done when one is disposed of. -/
structure Custody (ids : Nat → String) (w : World) (made : List Nat) : Prop where
  projected : Projected ids w.service.ledger
  orderly : w.clock.Orderly ids
  owned : w.service.owned = made.filter (!w.service.ledger.isDisposed ·)
  ordered : made.Pairwise (· < ·)
  given : ∀ handle ∈ made, handle < w.service.ledger.registrations.length
  callbacks : ∀ handle r, w.service.ledger.Live handle r → r.callbacks = if handle ∈ made then [.forget] else []

theorem custody_empty (hledger : w.service.ledger = {}) (howned : w.service.owned = []) (horderly : w.clock.Orderly ids) :
    Custody ids w [] := by
  refine ⟨hledger ▸ Ledger.projected_empty, horderly, howned, .nil, List.forall_mem_nil _, fun handle r hr => ?_⟩
  rw [hledger] at hr
  cases hr.1

theorem Custody.of_same (h : Custody ids w made) (horderly : v.clock.Orderly ids)
    (hledger : v.service.ledger = w.service.ledger) (howned : v.service.owned = w.service.owned) : Custody ids v made :=
  ⟨hledger ▸ h.projected, horderly, by rw [howned, hledger, h.owned], h.ordered, hledger ▸ h.given, hledger ▸ h.callbacks⟩

theorem Custody.mem_owned (h : Custody ids w made) :
    handle ∈ w.service.owned ↔ handle ∈ made ∧ ∃ r, w.service.ledger.Live handle r := by
  rw [h.owned, List.mem_filter, Bool.not_eq_true']
  exact and_congr_right fun hmade => Ledger.isDisposed_eq_false (h.given handle hmade)

/-- The handle that comes next is one that the service was not given. -/
theorem Custody.next_notMem (h : Custody ids w made) : w.service.ledger.registrations.length ∉ made :=
  fun hmem => Nat.lt_irrefl _ (h.given _ hmem)

/-! ### Registering -/

theorem live_append {l l' : Ledger ServiceCallback} {q r : Registration ServiceCallback}
    (hregistrations : l'.registrations = l.registrations ++ [q]) (hr : l'.Live handle r) :
    l.Live handle r ∨ handle = l.registrations.length ∧ r = q := by
  obtain ⟨hget, hlive⟩ := hr
  rw [hregistrations] at hget
  rcases Nat.lt_or_ge handle l.registrations.length with hlt | hge
  · rw [List.getElem?_append_left hlt] at hget
    exact .inl ⟨hget, hlive⟩
  · rw [List.getElem?_append_right hge] at hget
    obtain ⟨hzero, hq⟩ := List.getElem?_eq_some_iff.mp hget
    rw [List.length_singleton] at hzero
    exact .inr ⟨by omega, by rw [← hq]; simp⟩

theorem isDisposed_append {l l' : Ledger ServiceCallback} {q : Registration ServiceCallback}
    (hregistrations : l'.registrations = l.registrations ++ [q]) (hlt : handle < l.registrations.length) :
    l'.isDisposed handle = l.isDisposed handle := by
  rw [Ledger.isDisposed, Ledger.isDisposed, hregistrations, List.getElem?_append_left hlt]

/-- What was kept is kept when there is a registration more; a new one that the service was given is kept as well. -/
theorem Custody.append (h : Custody ids w made) {l : Ledger ServiceCallback} (hl : Projected ids l)
    {q : Registration ServiceCallback} (hregistrations : l.registrations = w.service.ledger.registrations ++ [q])
    (hlive : q.disposed = false) {new : List Nat}
    (hnew : new = [w.service.ledger.registrations.length] ∧ q.callbacks = [.forget] ∨ new = [] ∧ q.callbacks = []) :
    Custody ids (w.withLedger l (w.service.owned ++ new)) (made ++ new) := by
  have hat : l.registrations[w.service.ledger.registrations.length]? = some q := by
    rw [hregistrations, List.getElem?_append_right (Nat.le_refl _), Nat.sub_self]
    rfl
  have hmem : ∀ handle ∈ new, handle = w.service.ledger.registrations.length := by
    rcases hnew with ⟨rfl, -⟩ | ⟨rfl, -⟩
    · exact fun handle => List.mem_singleton.mp
    · exact fun handle hh => absurd hh List.not_mem_nil
  refine ⟨hl, h.orderly, ?_, ?_, fun handle hh => ?_, fun handle r hr => ?_⟩
  · show w.service.owned ++ new = (made ++ new).filter (!l.isDisposed ·)
    have hold : made.filter (!l.isDisposed ·) = made.filter (!w.service.ledger.isDisposed ·) :=
      List.filter_congr fun handle hh => by rw [isDisposed_append hregistrations (h.given handle hh)]
    have hkept : new.filter (!l.isDisposed ·) = new :=
      List.filter_eq_self.mpr fun handle hh => by rw [hmem handle hh, Ledger.isDisposed, hat, Option.any_some, hlive]; rfl
    rw [List.filter_append, hold, ← h.owned, hkept]
  · refine List.pairwise_append.mpr ⟨h.ordered, ?_, fun a ha b hb => hmem b hb ▸ h.given a ha⟩
    rcases hnew with ⟨rfl, -⟩ | ⟨rfl, -⟩
    · exact List.pairwise_singleton _ _
    · exact .nil
  · show handle < l.registrations.length
    rw [hregistrations, List.length_append, List.length_singleton]
    rcases List.mem_append.mp hh with hh | hh
    · exact Nat.lt_succ_of_lt (h.given handle hh)
    · exact hmem handle hh ▸ Nat.lt_succ_self _
  · rcases live_append hregistrations hr with hr | ⟨rfl, rfl⟩
    · have hlt : handle < w.service.ledger.registrations.length := (List.getElem?_eq_some_iff.mp hr.1).1
      have hnot : handle ∉ new := fun hh => absurd (hmem handle hh) (Nat.ne_of_lt hlt)
      rw [h.callbacks handle r hr]
      simp only [List.mem_append, hnot, or_false]
    · rcases hnew with ⟨rfl, hcallbacks⟩ | ⟨rfl, hcallbacks⟩
      · rw [hcallbacks, if_pos (List.mem_append_right _ (List.mem_singleton_self _))]
      · rw [hcallbacks, List.append_nil, if_neg h.next_notMem]

theorem Custody.register (h : Custody ids w made) {p : ProviderRef} {kinds : Option (List Capability)}
    (hp : p.id = ids p.index) (hr : w.register p kinds = .ok (v, handle)) :
    Custody ids v (made ++ [handle]) ∧ handle = w.service.ledger.registrations.length ∧
      v.service.ledger.registrations.length = handle + 1 := by
  obtain ⟨l, hl, rfl⟩ := register_eq hr
  have hprojected := (h.projected.register hp hl).onDispose handle ServiceCallback.forget
  obtain ⟨r', selected, -, rfl, rfl⟩ := Ledger.register_ok hl
  refine ⟨?_, rfl, ?_⟩
  · refine h.append (q := { provider := p, kinds := selected, callbacks := [.forget] }) hprojected ?_ rfl (.inl ⟨rfl, rfl⟩)
    show (w.service.ledger.registrations ++ [_]).modify w.service.ledger.registrations.length _ = _
    rw [List.modify_eq_take_cons_drop (by simp)]
    simp
  · show ((w.service.ledger.registrations ++ [_]).modify w.service.ledger.registrations.length _).length = _
    rw [List.length_modify, List.length_append, List.length_singleton]

/-! ### Disposing -/

/-- Disposing of a live handle strikes it off, and then perhaps disposes of its provider, if its callbacks do no more. -/
theorem dispose_of_live {r : Registration ServiceCallback} (hr : w.service.ledger.Live handle r)
    (hrun : ∀ l, (w.withLedger l w.service.owned).runCallbacks handle r.callbacks =
      (w.withLedger l (w.service.owned.erase handle), none)) :
    ∃ f, w.dispose handle = ({ w.withLedger (w.service.ledger.dispose handle).1 (w.service.owned.erase handle) with
        clock := w.clock.disposeProviders (w.service.ledger.disposedBy (.dispose handle)).toList }, f) ∧
      (f = none ∨ f = (w.clock.disposeProvider r.provider.index).2) := by
  obtain ⟨l, hl⟩ : ∃ l, (w.service.ledger.dispose handle).1 = l := ⟨_, rfl⟩
  have hdispose : w.service.ledger.dispose handle =
      (l, some ⟨r.provider, r.callbacks, !l.registry.lists? r.provider⟩) := by
    rw [← hl]
    simp [Ledger.dispose, hr.1, hr.2]
  have hrun := hrun l
  rw [Ledger.disposedBy_of_live hr.1 hr.2, hl]
  unfold withLedger at hrun
  simp only [World.dispose, hdispose, hrun]
  cases l.registry.lists? r.provider with
  | true => exact ⟨none, rfl, .inl rfl⟩
  | false => exact ⟨(w.clock.disposeProvider r.provider.index).2, rfl, .inr rfl⟩

/-- Disposing of a handle strikes it off, and then perhaps disposes of its provider. -/
theorem Custody.dispose_eq (h : Custody ids w made) (handle : Nat) :
    ∃ f, w.dispose handle = ({ w.withLedger (w.service.ledger.dispose handle).1 (w.service.owned.erase handle) with
        clock := w.clock.disposeProviders (w.service.ledger.disposedBy (.dispose handle)).toList }, f) ∧
      f ≠ some .interrupted := by
  have hnone : none ≠ some Fault.interrupted := (Option.some_ne_none _).symm
  by_cases hlive : ∃ r, w.service.ledger.Live handle r
  · obtain ⟨r, hr⟩ := hlive
    have hrun : ∀ l, (w.withLedger l w.service.owned).runCallbacks handle r.callbacks =
        (w.withLedger l (w.service.owned.erase handle), none) := by
      intro l
      rw [h.callbacks handle r hr]
      split
      · rfl
      · next hnot =>
        rw [List.erase_of_not_mem fun hmem => hnot (h.mem_owned.mp hmem).1]
        rfl
    obtain ⟨f, heq, rfl | rfl⟩ := dispose_of_live hr hrun
    · exact ⟨none, heq, hnone⟩
    · exact ⟨_, heq, h.orderly.disposeProvider _⟩
  · have hgone := Ledger.not_live (not_exists.mp hlive)
    have hsame : w.service.ledger.dispose handle = (w.service.ledger, none) := by
      unfold Ledger.dispose
      split
      · rfl
      · next r hr => rw [hgone r hr]; rfl
    have howned : w.service.owned.erase handle = w.service.owned :=
      List.erase_of_not_mem fun hmem => hlive (h.mem_owned.mp hmem).2
    rw [Ledger.disposedBy_of_not_live hgone, howned]
    refine ⟨none, ?_, hnone⟩
    simp only [dispose, hsame]
    rfl

theorem Custody.dispose (h : Custody ids w made) (handle : Nat) : Custody ids (w.dispose handle).1 made := by
  obtain ⟨f, heq, -⟩ := h.dispose_eq handle
  rw [heq]
  have hstill : ∀ other ∈ made, (w.service.ledger.dispose handle).1.isDisposed other = false ↔
      other ≠ handle ∧ w.service.ledger.isDisposed other = false := by
    intro other hother
    have hlt := h.given other hother
    rw [Ledger.isDisposed_eq_false hlt, Ledger.isDisposed_eq_false ((Ledger.length_dispose _ _).symm ▸ hlt)]
    simp only [Ledger.live_dispose, exists_and_left]
  refine ⟨h.projected.dispose handle, h.orderly.of_face (w.clock.face_disposeProviders _), ?_, h.ordered,
    fun other hother => ?_, fun other r hr => ?_⟩
  · show w.service.owned.erase handle = made.filter _
    have hnodup : made.Nodup := h.ordered.imp Nat.ne_of_lt
    rw [h.owned, (hnodup.filter _).erase_eq_filter, List.filter_filter]
    refine List.filter_congr fun other hother => ?_
    rw [Bool.eq_iff_iff, Bool.and_eq_true, Bool.not_eq_true', bne_iff_ne, Bool.not_eq_true']
    exact (hstill other hother).symm
  · show other < (w.service.ledger.dispose handle).1.registrations.length
    exact (Ledger.length_dispose _ _).symm ▸ h.given other hother
  · exact h.callbacks other r (Ledger.live_dispose.mp hr).2

theorem disposeAll_cons {f : Option Fault} (h : w.dispose handle = (v, f)) (hf : f ≠ some .interrupted) (hs : List Nat) :
    w.disposeAll (handle :: hs) = v.disposeAll hs := by
  rw [disposeAll, h]
  split
  · next heq => exact absurd (Prod.mk.inj heq).2 hf
  · next heq => rw [(Prod.mk.inj heq).1]

/-- **All handles are disposed of**, whatever providers complain about. -/
theorem Custody.disposeAll_eq (h : Custody ids w made) (hs : List Nat) :
    ∃ owned, w.disposeAll hs = ({ w.withLedger (w.service.ledger.disposeEach hs) owned with
      clock := w.clock.disposeProviders (w.service.ledger.disposedByEach hs) }, none) := by
  induction hs generalizing w with
  | nil => exact ⟨w.service.owned, rfl⟩
  | cons handle hs ih =>
    obtain ⟨f, heq, hf⟩ := h.dispose_eq handle
    have hnext := h.dispose handle
    rw [heq] at hnext
    obtain ⟨owned, hrest⟩ := ih hnext
    refine ⟨owned, (disposeAll_cons heq hf hs).trans (hrest.trans ?_)⟩
    simp only [Ledger.disposedByEach, Clockwork.disposeProviders, List.foldl_append]
    rfl

/-! ### Closing -/

/-- The world after closing: the handles are disposed of one after another, and no hook is told in the background. -/
def closed (w : World) : World :=
  { w.withLedger (w.service.ledger.disposeEach w.service.owned) [] with
    clock := w.clock.disposeProviders (w.service.ledger.disposedByEach w.service.owned)
    tellings := w.tellings.filter (!·.background) }

theorem Custody.close_eq (h : Custody ids w made) : w.close = (w.closed, none) := by
  obtain ⟨owned, hall⟩ := h.disposeAll_eq w.service.owned
  rw [close, hall]
  rfl

/-- None of the handles that the service was given is live any more. -/
theorem Custody.closed_live (h : Custody ids w made) {r : Registration ServiceCallback} :
    w.closed.service.ledger.Live handle r ↔ handle ∉ made ∧ w.service.ledger.Live handle r := by
  refine Ledger.live_disposeEach.trans ⟨fun ⟨hnot, hr⟩ => ⟨?_, hr⟩, fun ⟨hnot, hr⟩ => ⟨?_, hr⟩⟩
  · exact fun hmade => hnot (h.mem_owned.mpr ⟨hmade, r, hr⟩)
  · exact fun howned => hnot (h.mem_owned.mp howned).1

theorem Custody.closed_isDisposed (h : Custody ids w made) (hmade : handle ∈ made) :
    w.closed.service.ledger.isDisposed handle = true := by
  by_contra hlive
  have hlt : handle < w.closed.service.ledger.registrations.length :=
    (Ledger.length_disposeEach _ _).symm ▸ h.given handle hmade
  obtain ⟨r, hr⟩ := (Ledger.isDisposed_eq_false hlt).mp (Bool.eq_false_iff.mpr hlive)
  exact (h.closed_live.mp hr).1 hmade

theorem Custody.closed (h : Custody ids w made) : Custody ids w.closed made := by
  refine ⟨h.projected.disposeEach _, h.orderly.of_face (w.clock.face_disposeProviders _), ?_, h.ordered,
    fun handle hh => ?_, fun handle r hr => h.callbacks handle r (h.closed_live.mp hr).2⟩
  · refine (List.filter_eq_nil_iff.mpr fun handle hh => ?_).symm
    rw [h.closed_isDisposed hh]
    exact Bool.false_ne_true
  · exact (Ledger.length_disposeEach w.service.ledger w.service.owned).symm ▸ h.given handle hh

/-- Closing once more does nothing. -/
theorem close_closed (w : World) : w.closed.close = (w.closed, none) := by
  have hagain : w.closed.tellings.filter (!·.background) = w.closed.tellings :=
    List.filter_eq_self.mpr fun t ht => (List.mem_filter.mp ht).2
  show (({ w.closed with tellings := w.closed.tellings.filter (!·.background) } : World), none) = (w.closed, none)
  rw [hagain]

end World

end Orchestra
