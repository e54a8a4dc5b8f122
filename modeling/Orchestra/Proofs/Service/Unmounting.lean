import Orchestra.Proofs.Bridge
import Orchestra.Proofs.Service.Custody
import Orchestra.Proofs.Service.Mounting
import Orchestra.Proofs.Service.Lasting

/-!
# Orchestra.Proofs.Service.Unmounting — bridges come with mounting and go with closing

Mounting registers a bridge for every model, through the service, and nothing else (`Housed`).  As long as the service is
only used it stays so, and closing it then disposes of every bridge: none is listed any more, and whoever still calls one
is refused at once (`Scenario.Service.mount_bridges`).
-/

namespace Orchestra

namespace Clockwork

/-- Whoever calls the provider is refused at once, and no model is asked. -/
def Refuses (c : Clockwork) (p : ProviderRef) : Prop :=
  ∃ name, p.id = Bridge.id name ∧ ∀ (t : Task) (kind : Capability) (payload : Payload) (context : Context),
    c.begin t (.call p.index kind payload context) = c.record t.id
      (.error (if c.isCancelled t.token then .cancelled (some (Bridge.operation name)) none else .bridgeDisposed name))

variable {c : Clockwork} {b : ModelBridge} {index : Nat} {indices : List Nat}

theorem refuses_of_disposed {p : ProviderRef} (hb : c.providers[p.index]? = some (.bridge b))
    (hid : p.id = Bridge.id b.name) (hdisposed : b.disposed = true) : c.Refuses p := by
  refine ⟨b.name, hid, fun t kind payload context => ?_⟩
  simp only [begin, hb]
  cases c.isCancelled t.token with
  | true =>
    rw [ModelBridge.request_cancelled]
    rfl
  | false =>
    rw [ModelBridge.request_disposed payload.message context hdisposed]
    rfl

theorem disposeProvider_lasts (c : Clockwork) (index : Nat) : Lasts c (c.disposeProvider index).1 := by
  unfold disposeProvider
  split
  · exact ((Lasts.refl c).log _).trans (lasts_note _ index _)
  · exact c.lasts_modifyBridge index fun _ => ⟨rfl, fun _ => rfl⟩
  · exact .refl c

theorem disposeProviders_lasts (c : Clockwork) (indices : List Nat) : Lasts c (c.disposeProviders indices) := by
  induction indices generalizing c with
  | nil => exact .refl c
  | cons index indices ih => exact (c.disposeProvider_lasts index).trans (ih _)

theorem disposeProvider_bridge (hb : c.providers[index]? = some (.bridge b)) :
    (c.disposeProvider index).2 = none ∧
      (c.disposeProvider index).1.providers[index]? = some (.bridge { b with disposed := true }) := by
  simp only [disposeProvider, hb, modifyBridge]
  refine ⟨trivial, ?_⟩
  rw [List.getElem?_modify_eq, hb]
  rfl

/-- A bridge among those that are disposed of is disposed of. -/
theorem disposeProviders_bridge (hb : c.providers[index]? = some (.bridge b)) (hmem : index ∈ indices) :
    ∃ b', (c.disposeProviders indices).providers[index]? = some (.bridge b') ∧ b'.name = b.name ∧ b'.disposed = true := by
  induction indices generalizing c b with
  | nil => cases hmem
  | cons first indices ih =>
    rcases List.mem_cons.mp hmem with rfl | hmem
    · obtain ⟨b', hb', hname, hdisposed⟩ :=
        disposeProviders_lasts (c.disposeProvider index).1 indices index _ (disposeProvider_bridge hb).2
      exact ⟨b', hb', hname, hdisposed rfl⟩
    · obtain ⟨b₁, hb₁, hname₁, -⟩ := c.disposeProvider_lasts first index b hb
      obtain ⟨b', hb', hname, hdisposed⟩ := ih hb₁ hmem
      exact ⟨b', hb', hname.trans hname₁, hdisposed⟩

end Clockwork

namespace World

open Ledger (Projected)

variable {ids : Nat → String} {u v w : World} {hs : List Nat} {handle : Nat} {r : Registration ServiceCallback}
  {models : List ModelBridge} {b : ModelBridge}

/-! ### Registrations of bridges -/

/-- A registration of a bridge, made through the service. -/
structure OfBridge (w : World) (r : Registration ServiceCallback) : Prop where
  callbacks : r.callbacks = [.forget]
  kinds : r.kinds ≠ []
  bridge : ∃ b, w.clock.providers[r.provider.index]? = some (.bridge b) ∧ r.provider.id = Bridge.id b.name

/-- The live registrations are at these handles, and all are of bridges. -/
structure Housed (ids : Nat → String) (w : World) (hs : List Nat) : Prop where
  projected : Projected ids w.service.ledger
  nodup : hs.Nodup
  live : ∀ handle, handle ∈ hs ↔ ∃ r, w.service.ledger.Live handle r
  bridges : ∀ handle r, w.service.ledger.Live handle r → w.OfBridge r

theorem OfBridge.lasts (h : w.OfBridge r) (hclock : w.clock.Lasts v.clock) : v.OfBridge r := by
  obtain ⟨b, hb, hid⟩ := h.bridge
  obtain ⟨b', hb', hname, -⟩ := hclock _ b hb
  exact ⟨h.callbacks, h.kinds, b', hb', by rw [hid, hname]⟩

theorem Housed.lasts (h : Housed ids w hs) (hledger : v.service.ledger = w.service.ledger)
    (hclock : w.clock.Lasts v.clock) : Housed ids v hs := by
  refine ⟨hledger ▸ h.projected, h.nodup, fun handle => ?_, fun handle r hr => ?_⟩
  · rw [hledger]
    exact h.live handle
  · rw [hledger] at hr
    exact (h.bridges handle r hr).lasts hclock

/-! ### Mounting -/

/-- A model whose name is free gets a registration more. -/
theorem Housed.bridge (h : Housed ids w w.service.owned) (hid : Bridge.id b.name = ids w.clock.providers.length)
    (hfree : (w.service.ledger.registry.providersFor .chat).any (·.id == Bridge.id b.name) = false) :
    Housed ids (w.bridge b) (w.bridge b).service.owned ∧
      (w.bridge b).clock.providers = w.clock.providers ++ [.bridge b] := by
  obtain ⟨ledger, hregister, hregistrations, -, heq⟩ := bridge_registers hfree
  rw [heq]
  refine ⟨?_, rfl⟩
  let new : Registration ServiceCallback :=
    { provider := (Provider.bridge b).ref w.clock.providers.length, kinds := [.chat], callbacks := [.forget] }
  have hnew : (ledger.onDispose w.service.ledger.registrations.length .forget).registrations =
      w.service.ledger.registrations ++ [new] := by
    show ledger.registrations.modify w.service.ledger.registrations.length _ = _
    rw [hregistrations, List.modify_eq_take_cons_drop (by simp)]
    simp [new]
  have hlive : ∀ handle r, (ledger.onDispose w.service.ledger.registrations.length .forget).Live handle r ↔
      w.service.ledger.Live handle r ∨ handle = w.service.ledger.registrations.length ∧ r = new := by
    intro handle r
    refine ⟨live_append hnew, ?_⟩
    rintro (⟨hget, hr⟩ | ⟨rfl, rfl⟩)
    · refine ⟨?_, hr⟩
      rw [hnew, List.getElem?_append_left (List.getElem?_eq_some_iff.mp hget).1, hget]
    · exact ⟨by rw [hnew, List.getElem?_concat_length], rfl⟩
  have hnotMem : w.service.ledger.registrations.length ∉ w.service.owned := by
    intro hmem
    obtain ⟨r, hget, -⟩ := (h.live _).mp hmem
    exact Nat.lt_irrefl _ (List.getElem?_eq_some_iff.mp hget).1
  refine ⟨(h.projected.register hid hregister).onDispose _ _, ?_, fun handle => ?_, fun handle r hr => ?_⟩
  · exact List.nodup_append.mpr ⟨h.nodup, List.nodup_singleton _, fun a ha b hb heq =>
      hnotMem (List.mem_singleton.mp hb ▸ heq ▸ ha)⟩
  · show handle ∈ w.service.owned ++ [_] ↔
      ∃ r, (ledger.onDispose w.service.ledger.registrations.length ServiceCallback.forget).Live handle r
    simp only [hlive, List.mem_append, h.live, List.mem_singleton, exists_or, exists_and_left, exists_eq, and_true]
  · obtain hr | ⟨-, rfl⟩ := (hlive handle r).mp hr
    · exact (h.bridges handle r hr).lasts (Clockwork.lasts_append w.clock [.bridge b])
    · exact ⟨rfl, List.cons_ne_nil _ _, b, List.getElem?_concat_length, rfl⟩

/-- Models whose names differ get a registration each. -/
theorem Housed.bridgeAll (h : Housed ids w w.service.owned) (hbridging : w.Bridging models) (bridges : List ModelBridge)
    (hnames : ((models ++ bridges).map (·.name)).Nodup)
    (hids : ∀ index b, (w.clock.providers ++ bridges.map .bridge)[index]? = some (.bridge b) →
      w.clock.providers.length ≤ index → Bridge.id b.name = ids index) :
    Housed ids (Scenario.Service.bridgeAll w bridges) (Scenario.Service.bridgeAll w bridges).service.owned := by
  rw [bridgeAll_eq]
  induction bridges generalizing w models with
  | nil => exact h
  | cons b rest ih =>
    have hfree : (w.service.ledger.registry.providersFor .chat).any (·.id == Bridge.id b.name) = false := by
      refine Bool.eq_false_iff.mpr (mt (hbridging.taken_iff b).mp fun hmem => ?_)
      rw [List.map_append, List.map_cons, List.nodup_append] at hnames
      exact hnames.2.2 _ hmem _ List.mem_cons_self rfl
    have hid : Bridge.id b.name = ids w.clock.providers.length :=
      hids _ b (by simp) (Nat.le_refl _)
    obtain ⟨hhoused, hproviders⟩ := h.bridge hid hfree
    refine ih hhoused (hbridging.bridge b) (by simpa using hnames) fun index b' hb' hle => ?_
    rw [hproviders] at hb' hle
    refine hids index b' (by simpa using hb') ?_
    rw [List.length_append] at hle
    omega

/-! ### Closing -/

theorem Housed.dispose (h : Housed ids w (handle :: hs)) :
    w.dispose handle = ({ w.withLedger (w.service.ledger.dispose handle).1 (w.service.owned.erase handle) with
        clock := w.clock.disposeProviders (w.service.ledger.disposedBy (.dispose handle)).toList }, none) ∧
      Housed ids (w.dispose handle).1 hs := by
  obtain ⟨r, hr⟩ := (h.live handle).mp List.mem_cons_self
  have hbridge := h.bridges handle r hr
  obtain ⟨b, hb, -⟩ := hbridge.bridge
  have hrun : ∀ l, (w.withLedger l w.service.owned).runCallbacks handle r.callbacks =
      (w.withLedger l (w.service.owned.erase handle), none) := by
    intro l
    rw [hbridge.callbacks]
    rfl
  obtain ⟨f, heq, hf⟩ := dispose_of_live hr hrun
  have hnone : f = none := hf.elim id fun hf => hf.trans (Clockwork.disposeProvider_bridge hb).1
  rw [hnone] at heq
  refine ⟨heq, ?_⟩
  rw [heq]
  obtain ⟨hnot, hnodup⟩ := List.nodup_cons.mp h.nodup
  refine ⟨h.projected.dispose handle, hnodup, fun other => ?_, fun other q hq => ?_⟩
  · show other ∈ hs ↔ ∃ r, (w.service.ledger.dispose handle).1.Live other r
    simp only [Ledger.live_dispose, exists_and_left, ← h.live, List.mem_cons]
    constructor
    · exact fun hmem => ⟨fun heq => hnot (heq ▸ hmem), .inr hmem⟩
    · exact fun ⟨hne, hmem⟩ => hmem.resolve_left hne
  · exact (h.bridges other q (Ledger.live_dispose.mp hq).2).lasts (w.clock.disposeProviders_lasts _)

theorem Housed.disposeAll_eq (h : Housed ids w hs) :
    ∃ owned, w.disposeAll hs = ({ w.withLedger (w.service.ledger.disposeEach hs) owned with
      clock := w.clock.disposeProviders (w.service.ledger.disposedByEach hs) }, none) := by
  induction hs generalizing w with
  | nil => exact ⟨w.service.owned, rfl⟩
  | cons handle hs ih =>
    obtain ⟨heq, hnext⟩ := h.dispose
    rw [heq] at hnext
    obtain ⟨owned, hrest⟩ := ih hnext
    refine ⟨owned, (disposeAll_cons heq nofun hs).trans (hrest.trans ?_)⟩
    simp only [Ledger.disposedByEach, Clockwork.disposeProviders, List.foldl_append]
    rfl

/-- **Closing** disposes of all bridges, and nobody is listed any more. -/
theorem Housed.close (h : Housed ids w w.service.owned) :
    w.close = (w.closed, none) ∧ (∀ kind, w.closed.service.ledger.registry.providersFor kind = []) ∧
      ∀ kind, ∀ p ∈ w.service.ledger.registry.providersFor kind,
        ∃ b, w.closed.clock.providers[p.index]? = some (.bridge b) ∧ p.id = Bridge.id b.name ∧ b.disposed = true := by
  have hclose : w.close = (w.closed, none) := by
    obtain ⟨owned, hall⟩ := h.disposeAll_eq
    rw [World.close, hall]
    rfl
  refine ⟨hclose, fun kind => ?_, fun kind p hp => ?_⟩
  · refine List.eq_nil_iff_forall_not_mem.mpr fun p hp => ?_
    obtain ⟨handle, r, hr, -, -⟩ := (h.projected.disposeEach _).mem_providersFor.mp hp
    obtain ⟨hnot, hr⟩ := Ledger.live_disposeEach.mp hr
    exact hnot ((h.live handle).mpr ⟨r, hr⟩)
  · obtain ⟨handle, r, hr, -, rfl⟩ := h.projected.mem_providersFor.mp hp
    obtain ⟨b, hb, hid⟩ := (h.bridges handle r hr).bridge
    have hwithin : w.service.ledger.Within r.provider.index w.service.owned :=
      fun other q hq _ => ⟨(h.live other).mpr ⟨q, hq⟩, (h.bridges other q hq).kinds⟩
    have hone := (Ledger.count_disposedByEach h.projected hwithin).1 ⟨handle, r, hr, rfl⟩
    have hmem : r.provider.index ∈ w.service.ledger.disposedByEach w.service.owned :=
      List.count_pos_iff.mp (by rw [hone]; exact Nat.one_pos)
    obtain ⟨b', hb', hname, hdisposed⟩ := Clockwork.disposeProviders_bridge hb hmem
    exact ⟨b', hb', by rw [hid, hname], hdisposed⟩

/-! ### What is mounted -/

/-- For chat there is one bridge to every model, in this order, and for other kinds there is nobody. -/
structure Bridged (w : World) (bridges : List ModelBridge) : Prop where
  ids : (w.service.ledger.registry.providersFor .chat).map (·.id) = bridges.map fun b => Bridge.id b.name
  chat : w.serving .chat = bridges.map fun b => some (.bridge b)
  others : ∀ kind, kind ≠ .chat → w.service.ledger.registry.providersFor kind = []

theorem Bridging.bridged {bridges : List ModelBridge} (h : w.Bridging bridges) (hnames : (bridges.map (·.name)).Nodup) :
    w.Bridged bridges := by
  have hfirst : Result.firstByKey ModelBridge.name [] bridges = bridges := Result.firstByKey_of_nodup hnames
  exact ⟨hfirst ▸ h.ids, hfirst ▸ h.chat, fun kind hk => List.map_eq_nil_iff.mp (h.others kind hk)⟩

/-- Closing can undo it: it ends without a fault, nobody is listed any more, and from then on whoever calls one of these
providers is refused. -/
def Undoes (w : World) (ps : List ProviderRef) : Prop :=
  ∃ u, w.close = (u, none) ∧ (∀ kind, u.service.ledger.registry.providersFor kind = []) ∧
    ∀ p ∈ ps, ∀ ys : List Happening, (∀ y ∈ ys, y.Uses) → (u.unfold ys).clock.Refuses p

/-- **After any use**, closing undoes what was mounted. -/
theorem Housed.undoes (h : Housed ids w w.service.owned) (hagenda : w.agenda = []) {xs : List Happening}
    (hxs : ∀ x ∈ xs, x.Uses) : (w.unfold xs).Undoes (w.service.ledger.registry.providersFor .chat) := by
  obtain ⟨hlasts, hnone⟩ := uses_lasts hagenda hxs
  have hused : Housed ids (w.unfold xs) (w.unfold xs).service.owned := by
    rw [hlasts.owned]
    exact h.lasts hlasts.ledger hlasts.bridges
  obtain ⟨hclose, hunlisted, hdisposed⟩ := hused.close
  refine ⟨_, hclose, hunlisted, fun p hp ys hys => ?_⟩
  obtain ⟨b, hb, hid, hgone⟩ := hdisposed .chat p (hlasts.ledger ▸ hp)
  have hafter : (w.unfold xs).closed.agenda = [] := hnone
  obtain ⟨b', hb', hname, hstill⟩ := (uses_lasts hafter hys).1.bridges _ b hb
  exact Clockwork.refuses_of_disposed hb' (hid.trans (by rw [hname])) (hstill hgone)

end World

namespace Scenario.Service

open World

variable {s : Setting} {c : Coordinator} {v w : World}

/-- A new service has no registrations, and the providers around it are not its own. -/
theorem world_housed (ids : Nat → String) (hw : s.world = .ok w) : Housed ids w w.service.owned ∧ w.agenda = [] := by
  obtain ⟨config, context, rfl⟩ := Setting.world_new hw
  refine ⟨⟨Ledger.projected_empty, .nil, fun handle => ⟨nofun, ?_⟩, ?_⟩, rfl⟩
  · rintro ⟨r, hget, -⟩
    cases hget
  · rintro handle r ⟨hget, -⟩
    cases hget

theorem bridgeAll_agenda (bridges : List ModelBridge) (w : World) : (bridgeAll w bridges).agenda = w.agenda := by
  rw [bridgeAll_eq]
  induction bridges generalizing w with
  | nil => rfl
  | cons b rest ih =>
    refine (ih (w.bridge b)).trans ?_
    cases hfree : (w.service.ledger.registry.providersFor .chat).any (·.id == Bridge.id b.name) with
    | true => rw [bridge_taken hfree]; rfl
    | false =>
      obtain ⟨ledger, owned, heq, -⟩ := bridge_free hfree
      rw [heq]
      rfl

/-- Where no models are bridged, a mounted service is as new. -/
theorem mount_unbridged (hc : s.coordinator = some c) (hv : (mount s).1 = some v)
    (h : Config.bridges s.config = false ∨ c.mounted = .other) : s.world = .ok v := by
  cases hw : s.world with
  | error f => rw [mount, hw] at hv; cases hv
  | ok w =>
    have hmount : mount s = (if c.refuses then (if c.keeps then some w else none, false) else (some w, !s.unclear)) := by
      rw [mount, hw, hc]
      cases hrefuses : c.refuses <;> cases s.unclear <;> rcases h with h | h <;> simp [h, hrefuses]
    rw [hmount] at hv
    split at hv
    · split at hv
      · rw [Option.some.inj hv]
      · cases hv
    · rw [Option.some.inj hv]

/-- **Mounting bridges every model, and unmounting undoes it.**  On a coordinator that takes the service, with models of
different names, mounting gives a cleanup and a service with one bridge for each; however the service is used then, the
cleanup ends without a fault, nobody is listed any more, and the bridges refuse every call.  Where nothing is to be bridged
nobody is listed at all. -/
theorem mount_bridges (s : Setting) (c : Coordinator) (hc : s.coordinator = some c) :
    (∀ w bridges, s.world = .ok w → s.unclear = false → Config.bridges s.config = true → c.refuses = false →
      c.mounted = .models bridges → (bridges.map (·.name)).Nodup →
        ∃ v, mount s = (some v, true) ∧ v.Bridged bridges ∧ ∀ xs : List Happening, (∀ x ∈ xs, x.Uses) →
          (v.unfold xs).Undoes (v.service.ledger.registry.providersFor .chat)) ∧
    ∀ v, (mount s).1 = some v → Config.bridges s.config = false ∨ c.mounted = .other →
      ∀ kind, v.service.ledger.registry.providersFor kind = [] := by
  refine ⟨fun w bridges hw hclear hbridges haccepts hmodels hnames => ?_, fun v hv h kind => ?_⟩
  · have hmount : mount s = (some (bridgeAll w bridges), true) := by
      rw [mount, hw, hc]
      simp [haccepts, hclear, hbridges, hmodels]
    let ids : Nat → String := fun index =>
      (((w.clock.providers ++ bridges.map .bridge)[index]?).map fun p => (p.ref index).id).getD ""
    have hids : ∀ index b, (w.clock.providers ++ bridges.map .bridge)[index]? = some (.bridge b) →
        w.clock.providers.length ≤ index → Bridge.id b.name = ids index := by
      intro index b hb _
      simp only [ids, hb]
      rfl
    obtain ⟨hhoused, hagenda⟩ := world_housed ids hw
    have hall := hhoused.bridgeAll (world_bridging hw) bridges hnames hids
    refine ⟨_, hmount, ((world_bridging hw).bridgeAll bridges).bridged hnames, fun xs hxs => ?_⟩
    exact hall.undoes ((bridgeAll_agenda bridges w).trans hagenda) hxs
  · obtain ⟨config, context, rfl⟩ := Setting.world_new (mount_unbridged hc hv h)
    rfl

/-- Two models that are to be bridged. -/
def pair : List ModelBridge := [mute "first", mute "second"]

/-- A question is put to both; one of them is asked, and the context changes meanwhile. -/
def usage : List Happening := [
  .occurs (.begin (.chatResponse "hello" none) .none),
  .turn,
  .occurs (.setContext .nothing [.language (some "py")])]

theorem mount_bridges_pair :
    (∃ v, mount (mounting (.models pair) false) = (some v, true) ∧ v.Bridged pair ∧
      ∃ u, (v.unfold usage).close = (u, none) ∧ (∀ kind, u.service.ledger.registry.providersFor kind = []) ∧
        u.clock.Refuses ⟨0, "amplifier:first", [.chat]⟩ ∧ u.clock.Refuses ⟨1, "amplifier:second", [.chat]⟩) ∧
    ∃ v, (mount (mounting .other false)).1 = some v ∧ ∀ kind, v.service.ledger.registry.providersFor kind = [] := by
  have huses : ∀ x ∈ usage, x.Uses := by simp [usage, Happening.Uses]
  obtain ⟨v, hmount, hbridged, hundoes⟩ :=
    (mount_bridges (mounting (.models pair) false) _ rfl).1 _ pair rfl rfl rfl rfl rfl (by decide)
  obtain ⟨u, hclose, hunlisted, hrefuses⟩ := hundoes usage huses
  have hnone := (mount_bridges (mounting .other false) _ rfl).2 _ rfl (.inr rfl)
  cases hmount
  exact ⟨⟨_, rfl, hbridged, u, hclose, hunlisted, hrefuses _ (.head _) [] (List.forall_mem_nil _),
    hrefuses _ (.tail _ (.head _)) [] (List.forall_mem_nil _)⟩, _, rfl, hnone⟩

/-- A coordinator with a model that does not take the service: there is no cleanup, and no service that was mounted. -/
theorem mount_refused :
    (∃ w, (mounting (.models [mute "first"]) true).world = .ok w) ∧
      Config.bridges (mounting (.models [mute "first"]) true).config = true ∧
      mount (mounting (.models [mute "first"]) true) = (none, false) :=
  ⟨⟨_, rfl⟩, rfl, rfl⟩

end Scenario.Service

end Orchestra
