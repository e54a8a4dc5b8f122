import Orchestra.Proofs.Accounting.Occurrence
import Orchestra.Proofs.Registry.Projection
import Orchestra.Proofs.Result.Distinct
import Orchestra.Proofs.Service.Deeds

/-!
# Orchestra.Proofs.Service.Mounting — what mounting leaves behind

A service is offered before its models are bridged, and what was offered is not taken back.  Bridging goes through the
models one by one and passes over names that are taken; `Bridging` says which providers serve then, and is kept by each
model.  So a service that is mounted has a bridge for every model, and one whose mounting failed after it was offered has
one for every model that came before (`mount_settles`).
-/

namespace Orchestra

theorem Bridge.id_inj {a b : String} : Bridge.id a = Bridge.id b ↔ a = b := by
  unfold Bridge.id
  rw [← String.toList_inj, String.toList_append, String.toList_append, List.append_cancel_left_eq, String.toList_inj]

namespace World

/-- The providers that serve a kind, in the order in which they are asked. -/
def serving (w : World) (kind : Capability) : List (Option Provider) :=
  (w.service.ledger.registry.providersFor kind).map fun p => w.clock.providers[p.index]?

/-- Of these models each name has one bridge, to the first model of this name, and nothing else serves at all. -/
structure Bridging (w : World) (models : List ModelBridge) : Prop where
  ids : (w.service.ledger.registry.providersFor .chat).map (·.id) =
    (Result.firstByKey ModelBridge.name [] models).map fun b => Bridge.id b.name
  chat : w.serving .chat = (Result.firstByKey ModelBridge.name [] models).map fun b => some (.bridge b)
  others : ∀ kind, kind ≠ .chat → w.serving kind = []

variable {w : World} {b : ModelBridge} {bridges models : List ModelBridge}

/-! ### One model -/

/-- The world with one more provider. -/
def provided (w : World) (p : Provider) : World :=
  { w with clock := { w.clock with providers := w.clock.providers ++ [p] } }

/-- The world after a model was bridged, or passed over. -/
def bridge (w : World) (b : ModelBridge) : World :=
  (w.provided (.bridge b)).occur (.register ((Provider.bridge b).ref w.clock.providers.length) none)

theorem bridgeAll_eq (bridges : List ModelBridge) (w : World) :
    Scenario.Service.bridgeAll w bridges = bridges.foldl bridge w := by
  induction bridges generalizing w with
  | nil => rfl
  | cons b rest ih =>
    have hstep : Scenario.Service.bridgeAll w (b :: rest) = Scenario.Service.bridgeAll (w.bridge b) rest := by
      rw [Scenario.Service.bridgeAll, bridge, occur]
      rcases h : (w.provided (.bridge b)).register ((Provider.bridge b).ref w.clock.providers.length) none with f | ⟨v, n⟩
      all_goals rw [provided] at h
      all_goals simp only [h, provided]
    rw [hstep, ih, List.foldl_cons]

/-- A bridge is registered for chat alone. -/
theorem register_bridge (r : Registry) (b : ModelBridge) (index : Nat) :
    r.register ((Provider.bridge b).ref index) none =
      if (r.providersFor .chat).any (·.id == Bridge.id b.name) then .error (.duplicateProvider (Bridge.id b.name) .chat)
      else .ok (⟨Registry.append r.lists ((Provider.bridge b).ref index) .chat⟩, [.chat]) := by
  have hasked : Registry.asked ((Provider.bridge b).ref index) none = [.chat] := rfl
  have hdeclared : [Capability.chat].find? (!((Provider.bridge b).ref index).capabilities.contains ·) = none := rfl
  cases hid : (r.providersFor .chat).any (·.id == Bridge.id b.name) with
  | true =>
    have hfind : [Capability.chat].find? (r.hasId ((Provider.bridge b).ref index)) = some .chat :=
      List.find?_cons_of_pos hid
    exact Registry.register_eq_of_taken (hasked ▸ hdeclared) (hasked ▸ hfind)
  | false =>
    have hfind : [Capability.chat].find? (r.hasId ((Provider.bridge b).ref index)) = none :=
      List.find?_eq_none.mpr fun k hk => by
        rw [List.mem_singleton.mp hk]
        exact Bool.eq_false_iff.mp hid
    exact Registry.register_eq_ok (hasked ▸ hdeclared) (hasked ▸ hfind)

theorem bridge_taken (h : (w.service.ledger.registry.providersFor .chat).any (·.id == Bridge.id b.name) = true) :
    w.bridge b = w.provided (.bridge b) := by
  have hr : (w.provided (.bridge b)).register ((Provider.bridge b).ref w.clock.providers.length) none =
      .error (.duplicateProvider (Bridge.id b.name) .chat) := by
    simp [register, Ledger.register, provided, register_bridge, h, bind, Except.bind]
  rw [bridge, occur, hr]

/-- A bridge whose id is free is registered through the service, which is to be told when the registration ends. -/
theorem bridge_registers (h : (w.service.ledger.registry.providersFor .chat).any (·.id == Bridge.id b.name) = false) :
    ∃ ledger, w.service.ledger.register ((Provider.bridge b).ref w.clock.providers.length) none =
        .ok (ledger, w.service.ledger.registrations.length) ∧
      ledger.registrations = w.service.ledger.registrations ++
        [{ provider := (Provider.bridge b).ref w.clock.providers.length, kinds := [.chat] }] ∧
      (∀ kind, ledger.registry.providersFor kind = w.service.ledger.registry.providersFor kind ++
        if kind = .chat then [(Provider.bridge b).ref w.clock.providers.length] else []) ∧
      w.bridge b = (w.provided (.bridge b)).withLedger (ledger.onDispose w.service.ledger.registrations.length .forget)
        (w.service.owned ++ [w.service.ledger.registrations.length]) := by
  let p := (Provider.bridge b).ref w.clock.providers.length
  let ledger : Ledger ServiceCallback :=
    ⟨⟨Registry.append w.service.ledger.registry.lists p .chat⟩,
      w.service.ledger.registrations ++ [{ provider := p, kinds := [.chat] }]⟩
  have hr : w.service.ledger.register p none = .ok (ledger, w.service.ledger.registrations.length) := by
    simp [Ledger.register, register_bridge, h, p, ledger, bind, Except.bind, pure, Except.pure]
  have hregister : (w.provided (.bridge b)).register p none =
      .ok ((w.provided (.bridge b)).withLedger (ledger.onDispose w.service.ledger.registrations.length .forget)
        (w.service.owned ++ [w.service.ledger.registrations.length]), w.service.ledger.registrations.length) := by
    have hr' : (w.provided (.bridge b)).service.ledger.register p none =
      .ok (ledger, w.service.ledger.registrations.length) := hr
    simp only [register, hr', bind, Except.bind, pure, Except.pure]
    rfl
  refine ⟨ledger, hr, rfl, fun kind => Registry.listed_append, ?_⟩
  rw [bridge, occur, hregister]

theorem bridge_free (h : (w.service.ledger.registry.providersFor .chat).any (·.id == Bridge.id b.name) = false) :
    ∃ ledger owned, w.bridge b = (w.provided (.bridge b)).withLedger ledger owned ∧
      ∀ kind, ledger.registry.providersFor kind = w.service.ledger.registry.providersFor kind ++
        if kind = .chat then [(Provider.bridge b).ref w.clock.providers.length] else [] := by
  obtain ⟨ledger, -, -, hlisted, heq⟩ := bridge_registers h
  exact ⟨_, _, heq, hlisted⟩

/-- A provider that is not registered serves nothing. -/
theorem serving_provided {kind : Capability} (h : none ∉ w.serving kind) (p : Provider) :
    (w.provided p).serving kind = w.serving kind := by
  refine List.map_congr_left fun q hq => ?_
  have hknown : w.clock.providers[q.index]? ≠ none := fun hnone => h (List.mem_map.mpr ⟨q, hq, hnone⟩)
  exact List.getElem?_append_left (Nat.lt_of_not_le (mt List.getElem?_eq_none hknown))

namespace Bridging

theorem none_notMem (h : w.Bridging models) (kind : Capability) : none ∉ w.serving kind := by
  by_cases hk : kind = .chat
  · rw [hk, h.chat]
    simp
  · rw [h.others kind hk]
    exact List.not_mem_nil

theorem taken_iff (h : w.Bridging models) (b : ModelBridge) :
    (w.service.ledger.registry.providersFor .chat).any (·.id == Bridge.id b.name) = true ↔
      b.name ∈ models.map ModelBridge.name := by
  have hids : (w.service.ledger.registry.providersFor .chat).any (·.id == Bridge.id b.name) = true ↔
      Bridge.id b.name ∈ (w.service.ledger.registry.providersFor .chat).map (·.id) := by
    simp
  rw [hids, h.ids, ← Result.mem_map_firstByKey (l := models)]
  simp only [List.mem_map, Bridge.id_inj]

/-- Each model gets its bridge, unless its name is taken. -/
theorem bridge (h : w.Bridging models) (b : ModelBridge) : (w.bridge b).Bridging (models ++ [b]) := by
  have hprovided := fun kind => serving_provided (h.none_notMem kind) (.bridge b)
  have hfirst : Result.firstByKey ModelBridge.name [] (models ++ [b]) = Result.firstByKey ModelBridge.name [] models ++
      if b.name ∈ models.map ModelBridge.name then [] else [b] := Result.firstByKey_concat models b
  by_cases hname : b.name ∈ models.map ModelBridge.name
  · rw [if_pos hname, List.append_nil] at hfirst
    rw [bridge_taken ((h.taken_iff b).mpr hname)]
    refine ⟨?_, ?_, fun kind hk => (hprovided kind).trans (h.others kind hk)⟩
    · rw [hfirst]
      exact h.ids
    · rw [hfirst, hprovided]
      exact h.chat
  · rw [if_neg hname] at hfirst
    obtain ⟨ledger, owned, heq, hlisted⟩ := bridge_free (Bool.eq_false_iff.mpr (mt (h.taken_iff b).mp hname))
    have hserving : ∀ kind, (w.bridge b).serving kind =
        w.serving kind ++ if kind = .chat then [some (.bridge b)] else [] := by
      intro kind
      rw [heq, serving, withLedger, hlisted, List.map_append, ← hprovided]
      refine congrArg _ ?_
      split
      · simp [provided, Provider.ref]
      · rfl
    refine ⟨?_, ?_, fun kind hk => ?_⟩
    · rw [hfirst, heq, withLedger, hlisted, if_pos rfl, List.map_append, List.map_append, h.ids]
      rfl
    · rw [hfirst, hserving, if_pos rfl, h.chat, List.map_append]
      rfl
    · rw [hserving, if_neg hk, h.others kind hk, List.append_nil]

/-- Bridging one model after the other. -/
theorem bridgeAll (h : w.Bridging models) (bridges : List ModelBridge) :
    (Scenario.Service.bridgeAll w bridges).Bridging (models ++ bridges) := by
  rw [bridgeAll_eq]
  induction bridges generalizing w models with
  | nil => rwa [List.append_nil]
  | cons b rest ih => simpa using ih (h.bridge b)

end Bridging

end World

namespace Scenario.Service

open World

/-! ### Mounting -/

variable {s : Setting} {c : Coordinator} {w : World} {models : List ModelBridge}

/-- The models that are to be bridged. -/
def Setting.toBridge (s : Setting) (c : Coordinator) : List ModelBridge :=
  match Config.bridges s.config, c.mounted with
  | true, .models bridges => bridges
  | _, _ => []

/-- A service that is offered to this coordinator is there for others when mounting fails, and these models have been gone
through by then. -/
inductive Coordinator.Strands (c : Coordinator) (s : Setting) : List ModelBridge → Prop where
  | kept (refuses : c.refuses = true) (keeps : c.keeps = true) : c.Strands s []
  | unclear (accepts : c.refuses = false) (unclear : s.unclear = true) : c.Strands s []
  | breaks {models : List ModelBridge} (accepts : c.refuses = false) (clear : s.unclear = false)
      (bridges : Config.bridges s.config = true) (breaks : c.mounted = .breaks models) : c.Strands s models

/-- There is a service, and its mounting fails when it is there for others already. -/
def Setting.FailsLate (s : Setting) (models : List ModelBridge) : Prop :=
  ∃ c w, s.coordinator = some c ∧ s.world = .ok w ∧ c.Strands s models

/-- Nobody serves in a new service. -/
theorem world_bridging (hw : s.world = .ok w) : w.Bridging [] := by
  obtain ⟨config, context, rfl⟩ := Setting.world_new hw
  exact ⟨rfl, rfl, fun _ _ => rfl⟩

theorem mount_of_strands (hc : s.coordinator = some c) (hw : s.world = .ok w) (h : c.Strands s models) :
    mount s = (some (bridgeAll w models), false) := by
  rw [mount, hw, hc]
  cases h with
  | kept refuses keeps => simp [refuses, keeps, bridgeAll]
  | unclear accepts unclear => simp [accepts, unclear, bridgeAll]
  | breaks accepts clear bridges breaks => simp [accepts, clear, bridges, breaks]

theorem mount_of_not_strands (hc : s.coordinator = some c) (hw : s.world = .ok w) (h : ∀ models, ¬ c.Strands s models) :
    mount s = if c.refuses then (none, false) else (some (bridgeAll w (s.toBridge c)), true) := by
  rw [mount, hw, hc]
  dsimp only
  cases hrefuses : c.refuses with
  | true =>
    have hkeeps : c.keeps = false := Bool.eq_false_iff.mpr fun keeps => h [] (.kept hrefuses keeps)
    simp [hkeeps]
  | false =>
    have hclear : s.unclear = false := Bool.eq_false_iff.mpr fun unclear => h [] (.unclear hrefuses unclear)
    cases hbridges : Config.bridges s.config with
    | false => simp [hclear, hbridges, Setting.toBridge, bridgeAll]
    | true =>
      cases hmounted : c.mounted with
      | models bridges => simp [hclear, hbridges, hmounted, Setting.toBridge]
      | other => simp [hclear, hbridges, hmounted, Setting.toBridge, bridgeAll]
      | breaks models => exact absurd (.breaks hrefuses hclear hbridges hmounted) (h models)

/-- Nothing is offered where there is nobody to offer it to, or no service. -/
theorem mount_of_missing (h : ∀ c w, s.coordinator = some c → s.world ≠ .ok w) : mount s = (none, false) := by
  rw [mount]
  split
  · rfl
  · rfl
  · next hw hc => exact absurd hw (h _ _ hc)

theorem lookup_offers (before : List (String × World)) (w : World) :
    (offers before (some w)).lookup capabilityName = some w := by
  rw [offers, List.lookup_cons, beq_self_eq_true]

/-- **Mounting leaves a whole service or none, unless it fails late.**  With a cleanup comes a service that is offered and
has a bridge for every model.  Without one, what the coordinator offers is as it was, except if the mounting failed when the
service was offered already: then the service stays, with a bridge for every model that came before. -/
theorem mount_settles (s : Setting) (before : List (String × World)) :
    ((mount s).2 = true → ∃ c v, s.coordinator = some c ∧
      (offers before (mount s).1).lookup capabilityName = some v ∧ v.Bridging (s.toBridge c)) ∧
    ((mount s).2 = false → (∀ models, ¬ s.FailsLate models) → offers before (mount s).1 = before) ∧
    ∀ models, s.FailsLate models → (mount s).2 = false ∧ ∃ v,
      (offers before (mount s).1).lookup capabilityName = some v ∧ v.Bridging models := by
  have hlate : ∀ models, s.FailsLate models → (mount s).2 = false ∧ ∃ v,
      (offers before (mount s).1).lookup capabilityName = some v ∧ v.Bridging models := by
    rintro models ⟨c, w, hc, hw, hstrands⟩
    rw [mount_of_strands hc hw hstrands]
    exact ⟨rfl, _, lookup_offers before _, (world_bridging hw).bridgeAll models⟩
  by_cases hexists : ∃ c w, s.coordinator = some c ∧ s.world = .ok w
  · obtain ⟨c, w, hc, hw⟩ := hexists
    refine ⟨fun hcleanup => ?_, fun hnone hnot => ?_, hlate⟩
    · have hnot : ∀ models, ¬ c.Strands s models := fun models hstrands => by
        rw [mount_of_strands hc hw hstrands] at hcleanup
        cases hcleanup
      rw [mount_of_not_strands hc hw hnot] at hcleanup ⊢
      cases hrefuses : c.refuses with
      | true => simp [hrefuses] at hcleanup
      | false => exact ⟨c, _, hc, lookup_offers before _, (world_bridging hw).bridgeAll _⟩
    · rw [mount_of_not_strands hc hw fun models hstrands => hnot models ⟨c, w, hc, hw, hstrands⟩] at hnone ⊢
      cases hrefuses : c.refuses with
      | true => rfl
      | false => simp [hrefuses] at hnone
  · have hmissing := mount_of_missing (s := s) fun c w hc hw => hexists ⟨c, w, hc, hw⟩
    rw [hmissing]
    refine ⟨nofun, fun _ _ => rfl, ?_⟩
    rintro models ⟨c, w, hc, hw, -⟩
    exact absurd ⟨c, w, hc, hw⟩ hexists

/-- A model that never says anything. -/
def mute (name : String) : ModelBridge where
  key := name
  name := name
  script := { first := { outcome := .ok none } }
  system := ""
  arguments := []

/-- Mounting on a coordinator with these models, under a configuration that says nothing. -/
def mounting (mounted : Mounted) (refuses : Bool) : Setting where
  config := []
  coordinator := some { hooks := none, mounted, refuses }
  providers := []
  cancelled := []
  resolver := none
  beforehand := []
  mounts := true
  steps := []
  suffix := fun _ _ => "0"

def twins : Setting := mounting (.models [mute "first", mute "second", mute "first"]) false

def unwelcome : Setting := mounting .other true

def brokenOff : Setting := mounting (.breaks [mute "first"]) false

/-- Of two models under one name the first is bridged, nothing is left where the service is refused, and a mapping that
breaks off leaves the service with the models before. -/
theorem mount_twins :
    (∃ v, (offers [] (mount twins).1).lookup capabilityName = some v ∧
      v.serving .chat = [some (.bridge (mute "first")), some (.bridge (mute "second"))]) ∧
    offers [] (mount unwelcome).1 = [] ∧
    (mount brokenOff).2 = false ∧ ∃ v, (offers [] (mount brokenOff).1).lookup capabilityName = some v ∧
      v.serving .chat = [some (.bridge (mute "first"))] := by
  obtain ⟨hwhole, -, -⟩ := mount_settles twins []
  obtain ⟨c, v, hc, hv, hbridging⟩ := hwhole rfl
  cases hc
  refine ⟨⟨v, hv, hbridging.chat.trans rfl⟩, ?_, ?_⟩
  · refine (mount_settles unwelcome []).2.1 rfl ?_
    rintro models ⟨c, w, hc, -, hstrands⟩
    cases hc
    cases hstrands with
    | kept _ keeps => cases keeps
    | unclear accepts _ => cases accepts
    | breaks accepts _ _ _ => cases accepts
  · obtain ⟨hnone, v, hv, hbridging⟩ := (mount_settles brokenOff []).2.2 [mute "first"]
      ⟨_, _, rfl, rfl, .breaks rfl rfl rfl rfl⟩
    exact ⟨hnone, v, hv, hbridging.chat.trans rfl⟩

/-- Whether asking for the models fails at once or after one of them: there is no cleanup, and yet the service is offered,
in the second case with a provider. -/
theorem mount_left_behind :
    (mount (mounting .fails false)).2 = false ∧
      (offers [] (mount (mounting .fails false)).1).map Prod.fst = [capabilityName] ∧
    (mount brokenOff).2 = false ∧
      (offers [] (mount brokenOff).1).map (fun o => (o.1, o.2.service.ledger.registry.isEnabled)) =
        [(capabilityName, true)] :=
  ⟨rfl, rfl, rfl, rfl⟩

end Scenario.Service

end Orchestra
