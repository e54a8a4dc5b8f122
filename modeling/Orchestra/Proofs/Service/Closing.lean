import Mathlib.Data.List.Induction
import Orchestra.Proofs.Accounting.Occurrence
import Orchestra.Proofs.Service.Custody

/-!
# Orchestra.Proofs.Service.Closing — closing a service lets go of all that it registered

Whatever is done to a service, to its registrations by their owners, or to the registry without the service (`Dealing`),
the service keeps the handles that it was given and that are live (`custody_through`).  So closing lets go of all of them,
and of nothing else (`close_lets_go`).
-/

namespace Orchestra

/-- What is done to a service, or to its registry without it. -/
inductive Dealing where
  | occurs (x : Occurrence)
  /-- A provider is registered without the service. -/
  | enlist (p : ProviderRef) (kinds : Option (List Capability))

/-- Providers keep their ids and never cancel who disposes of them, and there are no callbacks but those of the service. -/
def Dealing.Plain (ids : Nat → String) : Dealing → Prop
  | .occurs (.onDispose _ _) => False
  | .occurs (.register p _) | .enlist p _ => p.id = ids p.index
  | .occurs (.clock c) => c.Orderly ids
  | .occurs _ => True

namespace World

def deal (w : World) : Dealing → World
  | .occurs x => w.occur x
  | .enlist p kinds =>
    match w.service.ledger.register p kinds with
    | .error _ => w
    | .ok (ledger, _) => w.withLedger ledger w.service.owned

/-- How many handles were given out. -/
def handles (w : World) : Nat := w.service.ledger.registrations.length

/-- The handles that were given out between one world and another. -/
def newHandles (w v : World) : List Nat := List.range' w.handles (v.handles - w.handles)

/-- The registrations that the service makes in a dealing. -/
def madeBy (w : World) : Dealing → List Nat
  | .occurs x => w.newHandles (w.occur x)
  | .enlist _ _ => []

/-- The world after dealings, one by one, and the registrations that the service made meanwhile. -/
def through (w : World) (ds : List Dealing) : World × List Nat :=
  ds.foldl (fun s d => (s.1.deal d, s.2 ++ s.1.madeBy d)) (w, [])

theorem through_concat (w : World) (ds : List Dealing) (d : Dealing) :
    w.through (ds ++ [d]) = ((w.through ds).1.deal d, (w.through ds).2 ++ (w.through ds).1.madeBy d) := List.foldl_concat ..

/-! ### Dealings keep custody -/

variable {ids : Nat → String} {u v w : World} {made : List Nat}

/-- All handles that were given out meanwhile are the service's, which keeps them with what it kept before. -/
def Entrusts (ids : Nat → String) (w v : World) : Prop :=
  ∀ made, Custody ids w made → w.handles ≤ v.handles ∧ Custody ids v (made ++ w.newHandles v)

/-- Where no handle was given out. -/
theorem entrusts_of_handles (h : ∀ made, Custody ids w made → v.handles = w.handles ∧ Custody ids v made) :
    Entrusts ids w v := by
  intro made hmade
  obtain ⟨hhandles, hkept⟩ := h made hmade
  refine ⟨Nat.le_of_eq hhandles.symm, ?_⟩
  rwa [newHandles, hhandles, Nat.sub_self, List.range'_zero, List.append_nil]

theorem Entrusts.refl (w : World) : Entrusts ids w w := entrusts_of_handles fun _ h => ⟨rfl, h⟩

theorem Entrusts.trans (h : Entrusts ids w v) (h' : Entrusts ids v u) : Entrusts ids w u := by
  intro made hmade
  obtain ⟨hwv, hv⟩ := h made hmade
  obtain ⟨hvu, hu⟩ := h' _ hv
  have hnew : w.newHandles v ++ v.newHandles u = w.newHandles u := by
    have hstart : w.handles + (v.handles - w.handles) = v.handles := Nat.add_sub_of_le hwv
    have hlength : u.handles - w.handles = (v.handles - w.handles) + (u.handles - v.handles) := by omega
    rw [newHandles, newHandles, newHandles, hlength, ← List.range'_append_1, hstart]
  rw [List.append_assoc, hnew] at hu
  exact ⟨Nat.le_trans hwv hvu, hu⟩

theorem Retains.entrusts (h : Retains w v) : Entrusts ids w v :=
  entrusts_of_handles fun _ hmade => ⟨congrArg (·.registrations.length) h.ledger,
    hmade.of_same (hmade.orderly.of_providers h.providers) h.ledger h.owned⟩

theorem register_entrusts {p : ProviderRef} {kinds : Option (List Capability)} {handle : Nat} (hp : p.id = ids p.index)
    (h : w.register p kinds = .ok (v, handle)) : Entrusts ids w v := by
  intro made hmade
  obtain ⟨hkept, rfl, hhandles⟩ := hmade.register hp h
  have hnew : w.newHandles v = [w.handles] := by
    rw [newHandles, handles, handles, hhandles, Nat.add_sub_cancel_left]
    rfl
  rw [hnew]
  exact ⟨Nat.le_trans (Nat.le_succ _) (Nat.le_of_eq hhandles.symm), hkept⟩

theorem dispose_entrusts (w : World) (handle : Nat) : Entrusts ids w (w.dispose handle).1 :=
  entrusts_of_handles fun made hmade => by
    refine ⟨?_, hmade.dispose handle⟩
    obtain ⟨f, h, -⟩ := hmade.dispose_eq handle
    rw [h]
    exact Ledger.length_dispose _ _

theorem close_entrusts (w : World) : Entrusts ids w w.close.1 :=
  entrusts_of_handles fun made hmade => by
    rw [hmade.close_eq]
    exact ⟨Ledger.length_disposeEach _ _, hmade.closed⟩

theorem doDeed_entrusts (w : World) (d : Deed) : Entrusts ids w (w.doDeed d) := by
  cases d with
  | cancel source =>
    refine entrusts_of_handles fun made hmade => ⟨rfl, hmade.of_same (hmade.orderly.of_providers ?_) rfl rfl⟩
    show (w.clock.cancel source).providers = _
    rw [Clockwork.cancel_eq]
  | dispose index =>
    simp only [doDeed]
    split
    · exact .refl w
    · exact dispose_entrusts w _
  | register index =>
    simp only [doDeed]
    split
    · exact .refl w
    · next p hp =>
      split
      · exact .refl w
      · next hr =>
        intro made hmade
        refine register_entrusts ?_ hr made hmade
        obtain ⟨q, hq, rfl⟩ := Option.map_eq_some_iff.mp hp
        have hface : w.clock.face index = some (q.ref index, q.complaint) := by rw [Clockwork.face, hq, Option.map_some]
        have hindex : (q.ref index).index = index := by cases q <;> rfl
        rw [hindex]
        exact (hmade.orderly index _ hface).1

theorem doDue_entrusts (w : World) : Entrusts ids w w.doDue := by
  have hall : ∀ (ds : List (Tick × Deed)) (w : World), Entrusts ids w (ds.foldl (fun w d => w.doDeed d.2) w) := by
    intro ds
    induction ds with
    | nil => exact Entrusts.refl
    | cons d ds ih => exact fun w => (doDeed_entrusts w d.2).trans (ih _)
  have hagenda : Entrusts ids w { w with agenda := w.laterDeeds } :=
    entrusts_of_handles fun _ hmade => ⟨rfl, hmade.of_same hmade.orderly rfl rfl⟩
  exact hagenda.trans (hall _ _)

/-- **Whatever occurs**, the service keeps what it is given. -/
theorem occur_entrusts {x : Occurrence} (hx : (Dealing.occurs x).Plain ids) : Entrusts ids w (w.occur x) := by
  cases x with
  | begin order token => exact (begin_retains w order token).entrusts
  | resume op =>
    simp only [occur]
    cases ho : w.operations[op]? with
    | none => exact .refl w
    | some o =>
      rw [Option.bind_some]
      cases hr : w.resume op o with
      | none => exact .refl w
      | some v => exact (resume_retains hr).entrusts
  | abort op =>
    obtain ⟨clock, tellings, hretains, hproviders, -⟩ := abort_retains w op
    have hstopped : Entrusts ids w { w with clock, tellings } := entrusts_of_handles fun _ hmade =>
      ⟨rfl, hmade.of_same (hmade.orderly.of_providers hproviders) rfl rfl⟩
    exact hstopped.trans hretains.entrusts
  | clock c => exact entrusts_of_handles fun _ hmade => ⟨rfl, hmade.of_same hx rfl rfl⟩
  | tell =>
    have hseen : Retains w ((w.tellings.flatMap (·.seen w.now)).foldl log w) := foldl_retains log_retains _ w
    refine hseen.entrusts.trans (entrusts_of_handles fun _ hmade => ?_)
    exact ⟨rfl, hmade.of_same hmade.orderly rfl rfl⟩
  | due => exact doDue_entrusts w
  | deed d => exact doDeed_entrusts w d
  | register p kinds =>
    simp only [occur]
    split
    · exact .refl w
    · next h => exact register_entrusts hx h
  | dispose handle => exact dispose_entrusts w handle
  | onDispose handle callback => exact hx.elim
  | listen stream name reaction => exact (listen_retains w stream name reaction).entrusts
  | unlisten name => exact (unlisten_retains w name).entrusts
  | setContext extras fields =>
    simp only [occur]
    split
    · exact .refl w
    · next h => exact (setContext_retains h).entrusts
  | commit extras fields =>
    simp only [occur]
    split
    · exact .refl w
    · next h => exact (commit_retains h).entrusts
  | clearContext => exact entrusts_of_handles fun _ hmade => ⟨rfl, hmade.of_same hmade.orderly rfl rfl⟩
  | close => exact close_entrusts w

theorem Custody.deal {d : Dealing} (h : Custody ids w made) (hd : d.Plain ids) :
    Custody ids (w.deal d) (made ++ w.madeBy d) := by
  cases d with
  | occurs x => exact (occur_entrusts hd made h).2
  | enlist p kinds =>
    simp only [World.deal, madeBy]
    split
    · rwa [List.append_nil]
    · next l handle hr =>
      have hprojected := h.projected.register hd hr
      obtain ⟨r', selected, -, rfl, rfl⟩ := Ledger.register_ok hr
      have hkept := h.append hprojected (q := { provider := p, kinds := selected }) rfl rfl (.inr ⟨rfl, rfl⟩)
      have howned : w.service.owned ++ [] = w.service.owned := List.append_nil _
      rwa [howned] at hkept

/-- **Custody.**  Of a new service, through any dealings. -/
theorem custody_through (hw : Custody ids w []) {ds : List Dealing} (hds : ∀ d ∈ ds, d.Plain ids) :
    Custody ids (w.through ds).1 (w.through ds).2 := by
  induction ds using List.reverseRecOn with
  | nil => exact hw
  | append_singleton ds d ih =>
    rw [through_concat]
    exact (ih fun d hd => hds d (List.mem_append_left _ hd)).deal (hds d (by simp))

/-! ### Closing -/

/-- **Closing lets go of everything.**  Take a new service through any dealings.  It keeps the live ones of the
registrations that it made, in order, and closing it ends without a complaint: no registration that it made is live, and
none of their providers is listed for their kinds; a provider is disposed of once if all that it has goes, for some kind
each, and nobody is disposed of for a registration that was not kept; other registrations and what they list stay.  To
close the service once more does nothing. -/
theorem close_lets_go (hledger : w.service.ledger = {}) (howned : w.service.owned = []) (horderly : w.clock.Orderly ids)
    {ds : List Dealing} (hds : ∀ d ∈ ds, d.Plain ids) :
    let v := (w.through ds).1
    let made := (w.through ds).2
    made.Pairwise (· < ·) ∧ v.service.owned = made.filter (!v.service.ledger.isDisposed ·) ∧
    ∃ c, v.close = (c, none) ∧
      (∀ handle ∈ made, c.service.ledger.isDisposed handle = true) ∧
      (∀ handle r k, v.service.ledger.Live handle r → handle ∈ made → k ∈ r.kinds →
        ∀ q ∈ c.service.ledger.registry.providersFor k, q.index ≠ r.provider.index) ∧
      (∃ calls, c.clock = v.clock.disposeProviders calls ∧
        calls.Sublist (v.service.ledger.providersAt v.service.owned) ∧
        ∀ provider, v.service.ledger.Holds provider → v.service.ledger.Within provider v.service.owned →
          calls.count provider = 1) ∧
      (∀ handle ∉ v.service.owned,
        c.service.ledger.registrations[handle]? = v.service.ledger.registrations[handle]?) ∧
      (∀ k p, p ∈ c.service.ledger.registry.providersFor k ↔
        ∃ handle r, v.service.ledger.Live handle r ∧ handle ∉ made ∧ k ∈ r.kinds ∧ r.provider = p) ∧
      c.close = (c, none) := by
  intro v made
  have h : Custody ids v made := custody_through (custody_empty hledger howned horderly) hds
  have hlisted : ∀ k p, p ∈ v.closed.service.ledger.registry.providersFor k ↔
      ∃ handle r, v.service.ledger.Live handle r ∧ handle ∉ made ∧ k ∈ r.kinds ∧ r.provider = p := by
    intro k p
    rw [h.closed.projected.mem_providersFor]
    constructor
    · rintro ⟨handle, r, hr, hk, hp⟩
      obtain ⟨hnot, hlive⟩ := h.closed_live.mp hr
      exact ⟨handle, r, hlive, hnot, hk, hp⟩
    · rintro ⟨handle, r, hlive, hnot, hk, hp⟩
      exact ⟨handle, r, h.closed_live.mpr ⟨hnot, hlive⟩, hk, hp⟩
  refine ⟨h.ordered, h.owned, v.closed, h.close_eq, fun handle => h.closed_isDisposed, ?_,
    ⟨_, rfl, Ledger.disposedByEach_sublist _ _, ?_⟩, fun handle hnot => Ledger.getElem?_disposeEach hnot, hlisted,
    close_closed v⟩
  · intro handle r k hr hmade hk q hq hindex
    obtain ⟨other, q, hother, hnot, hkq, rfl⟩ := (hlisted k q).mp hq
    -- two providers with one index on one list are one registration
    have hsame := h.projected.live_unique hr hother hk hkq hindex.symm
    exact hnot (hsame ▸ hmade)
  · intro provider hholds hwithin
    exact (Ledger.count_disposedByEach h.projected hwithin).1 hholds

/-- A provider that chats and edits, and does nothing else; disposing of it may fail. -/
def idler (key : String) (complaint : Option Fault) : Provider :=
  .scripted {
    key, id := key, capabilities := [.chat, .codeEdit], init := { outcome := .ok () }, disposeFault := complaint
    script := ⟨{ outcome := .ok fun kind => .ok (.emptyFor kind) }, []⟩ }

/-- Three providers, the first of which cannot be disposed of without a complaint. -/
def crowd : Scenario.Service.Setting where
  config := []
  coordinator := none
  providers := [idler "grumbler" (some (.outside .runtime "not now" false)), idler "visitor" none, idler "stranger" none]
  cancelled := []
  resolver := none
  beforehand := []
  mounts := false
  steps := []
  suffix := fun _ _ => "0"

/-- The first comes twice, for a kind each, the second comes and is disposed of, and the third comes by itself. -/
def arrivals : List Dealing := [
  .occurs (.register ⟨0, "grumbler", [.chat, .codeEdit]⟩ (some [.chat])),
  .occurs (.register ⟨1, "visitor", [.chat, .codeEdit]⟩ (some [.chat])),
  .enlist ⟨2, "stranger", [.chat, .codeEdit]⟩ (some [.chat]),
  .occurs (.dispose 1),
  .occurs (.register ⟨0, "grumbler", [.chat, .codeEdit]⟩ (some [.codeEdit]))]

def names (index : Nat) : String := (["grumbler", "visitor", "stranger"][index]?).getD ""

theorem crowd_orderly {w : World} (h : crowd.world = .ok w) : w.clock.Orderly names := by
  cases h
  intro index f hf
  match index with
  | 0 | 1 | 2 => cases hf; exact ⟨rfl, nofun⟩
  | _ + 3 => cases hf

theorem arrivals_plain : ∀ d ∈ arrivals, d.Plain names := by
  simp [arrivals, Dealing.Plain, names]

theorem close_lets_go_crowd :
    ∃ w v c, crowd.world = .ok w ∧ v = (w.through arrivals).1 ∧ v.service.owned = [0, 3] ∧ v.close = (c, none) ∧
      c.clock.journal = [.dispose "grumbler", .dispose "visitor"] ∧
      c.service.ledger.registry.providersFor .chat = [⟨2, "stranger", [.chat, .codeEdit]⟩] ∧
      c.service.ledger.registry.providersFor .codeEdit = [] ∧ c.close = (c, none) := by
  obtain ⟨w, hw⟩ : ∃ w, crowd.world = .ok w := ⟨_, rfl⟩
  have horderly := crowd_orderly hw
  cases hw
  obtain ⟨-, -, c, hclose, -, -, -, -, -, hagain⟩ := close_lets_go rfl rfl horderly arrivals_plain
  exact ⟨_, _, c, rfl, rfl, rfl, hclose, by cases hclose; rfl, by cases hclose; rfl, by cases hclose; rfl, hagain⟩

end World

end Orchestra
