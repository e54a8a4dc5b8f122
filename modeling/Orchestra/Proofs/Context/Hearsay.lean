import Orchestra.Proofs.Context.Updates
import Orchestra.Proofs.Dispatch.Launch

/-!
# Orchestra.Proofs.Context.Hearsay — operations leave the context to those who listen

No operation updates the context.  It tells listeners what comes of it, and these may set the language when they hear of
that, or of each other: all that changes in the context, and every change of it that is told, is what such listeners say
(`Leaves`).  Where nobody listens who says anything, the context and its history stay as they are (`Leaves.untouched`).
-/

namespace Orchestra

/-- The store after a listener has set the language; what takes no update stays as it is. -/
def ContextStore.speak (s : ContextStore) (language : String) : ContextStore :=
  match s.set .nothing [.language (some language)] with
  | .error _ => s
  | .ok (s, _) => s

namespace World

/-- Somebody listens who sets the language to that when told. -/
def Utters (w : World) (language : String) : Prop :=
  ∃ stream, ∃ l ∈ (w.service.bus.emitter stream).listeners, ∃ another withdrawn,
    l.reaction = some (.act another withdrawn (some language))

/-- The context has become what listeners have made of it, who tell each other so, and nobody says more than before; as
many requests were made as given. -/
structure Leaves (utters : String → Prop) (made : Nat) (w v : World) : Prop where
  context : ∃ said : List String, (∀ s ∈ said, utters s) ∧
    v.service.context = said.foldl ContextStore.speak w.service.context
  published : ∃ es, v.published = w.published ++ es ∧
    ∀ update, .context update ∈ es → ∃ s, utters s ∧ update.changes = [.language (some s)]
  utters : ∀ s, v.Utters s → w.Utters s
  requests : v.service.requests = w.service.requests + made

variable {u v w : World} {utters : String → Prop} {made made' : Nat}

/-- Where nothing is published. -/
theorem Leaves.of_said (said : List String) (hsaid : ∀ s ∈ said, utters s)
    (hcontext : v.service.context = said.foldl ContextStore.speak w.service.context)
    (hpublished : v.published = w.published) (hutters : ∀ s, v.Utters s → w.Utters s)
    (hrequests : v.service.requests = w.service.requests + made) : Leaves utters made w v :=
  ⟨⟨said, hsaid, hcontext⟩, ⟨[], by rw [hpublished, List.append_nil], fun _ h => absurd h List.not_mem_nil⟩, hutters,
    hrequests⟩

/-- Where the service is the same but for registrations and counts. -/
theorem Leaves.of_same (hcontext : v.service.context = w.service.context) (hbus : v.service.bus = w.service.bus)
    (hrequests : v.service.requests = w.service.requests) (hpublished : v.published = w.published) :
    Leaves utters 0 w v :=
  .of_said [] (List.forall_mem_nil _) hcontext hpublished
    (fun _ ⟨stream, l, hl, h⟩ => ⟨stream, l, hbus ▸ hl, h⟩) hrequests

theorem Leaves.refl (w : World) : Leaves utters 0 w w := .of_same rfl rfl rfl rfl

theorem Leaves.trans (h : Leaves utters made w v) (h' : Leaves utters made' v u) : Leaves utters (made + made') w u := by
  obtain ⟨said, hsaid, hcontext⟩ := h.context
  obtain ⟨said', hsaid', hcontext'⟩ := h'.context
  obtain ⟨es, hes, hevents⟩ := h.published
  obtain ⟨es', hes', hevents'⟩ := h'.published
  refine ⟨⟨said ++ said', List.forall_mem_append.mpr ⟨hsaid, hsaid'⟩, by rw [hcontext', hcontext, List.foldl_append]⟩,
    ⟨es ++ es', by rw [hes', hes, List.append_assoc], fun update hmem => ?_⟩, fun s hs => h.utters s (h'.utters s hs),
    by rw [h'.requests, h.requests, Nat.add_assoc]⟩
  rcases List.mem_append.mp hmem with hmem | hmem
  · exact hevents update hmem
  · exact hevents' update hmem

theorem Leaves.mono {utters' : String → Prop} (h : Leaves utters made w v) (hle : ∀ s, utters s → utters' s) :
    Leaves utters' made w v := by
  obtain ⟨said, hsaid, hcontext⟩ := h.context
  obtain ⟨es, hes, hevents⟩ := h.published
  refine ⟨⟨said, fun s hs => hle s (hsaid s hs), hcontext⟩, ⟨es, hes, fun update hmem => ?_⟩, h.utters, h.requests⟩
  obtain ⟨s, hs, hchanges⟩ := hevents update hmem
  exact ⟨s, hle s hs, hchanges⟩

/-- Where nobody says anything, the context stays as it is, and no change of it is told. -/
theorem Leaves.untouched (h : Leaves w.Utters made w v) (hsilent : ∀ s, ¬ w.Utters s) :
    v.service.context = w.service.context ∧ ∃ es, v.published = w.published ++ es ∧ ∀ update, .context update ∉ es := by
  obtain ⟨said, hsaid, hcontext⟩ := h.context
  obtain ⟨es, hes, hevents⟩ := h.published
  refine ⟨?_, es, hes, fun update hmem => ?_⟩
  · rw [hcontext, List.eq_nil_iff_forall_not_mem.mpr fun s hs => hsilent s (hsaid s hs)]
    rfl
  · obtain ⟨s, hs, -⟩ := hevents update hmem
    exact hsilent s hs

/-! ### Hooks and listeners -/

end World

end Orchestra
