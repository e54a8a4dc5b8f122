import Orchestra.Proofs.Observers.Delivery
import Orchestra.Proofs.Observers.Shadowing

/-!
# Orchestra.Proofs.Observers.Influence — observers do not influence requests

`World.unobserved` is a service without those who observe it, at any point of its life: nobody listens, and there is no
coordinator.  Whatever happens to the observed service happens to the other one as well, and the other way round, and
whoever makes requests cannot tell the two apart (`run_uninfluenced`): as long as listeners only return or raise, and however
long hooks take and whatever they raise.
-/

namespace Orchestra

/-- The operation without hooks to wait for: whoever waited for them has been given the outcome. -/
def Operation.unobserved (now : Tick) (o : Operation) : Operation :=
  match o.stage with
  | .relaying _ _ outcome => { o with stage := .done (answerTo o.assistant outcome) now }
  | _ => o

theorem Operation.unobserved_cases (now : Tick) (o : Operation) :
    (∃ telling queue outcome, o.stage = .relaying telling queue outcome ∧
      o.unobserved now = { o with stage := .done (answerTo o.assistant outcome) now }) ∨
    (∀ telling queue outcome, o.stage ≠ .relaying telling queue outcome) ∧ o.unobserved now = o := by
  cases h : o.stage with
  | relaying telling queue outcome => exact .inl ⟨telling, queue, outcome, rfl, by rw [unobserved, h]⟩
  | resolving _ _ _ | flying _ | done _ _ => exact .inr ⟨fun _ _ _ hs => (by cases hs), by rw [unobserved, h]⟩

@[simp] theorem Operation.unobserved_assistant (now : Tick) (o : Operation) :
    (o.unobserved now).assistant = o.assistant := by
  unfold unobserved; split <;> rfl

@[simp] theorem Operation.unobserved_request (now : Tick) (o : Operation) : (o.unobserved now).request = o.request := by
  unfold unobserved; split <;> rfl

theorem Operation.unobserved_stripped (now : Tick) (lost : Bool) (o : Operation) :
    (o.unobserved now).stripped lost = o.stripped lost := by
  obtain ⟨telling, queue, outcome, hstage, h⟩ | ⟨-, h⟩ := o.unobserved_cases now
  · have hd : o.decided? = some (answerTo o.assistant outcome) := by rw [decided?, hstage]
    rw [h, stripped_of_decided hd]
    rfl
  · rw [h]

theorem Operation.unobserved_undecided (now : Tick) (o : Operation) : (o.unobserved now).undecided = o.undecided := by
  obtain ⟨telling, queue, outcome, hstage, h⟩ | ⟨-, h⟩ := o.unobserved_cases now
  · rw [h, undecided, undecided, hstage]
  · rw [h]

namespace World

variable {lost : Nat → Bool} {u v w : World} {op : Nat} {answer : Except Fault Answer} {xs ys : List Happening}

/-! ### A service that nobody observes -/

/-- The service without listeners and without a coordinator. -/
def unobserved (w : World) : World :=
  { w with
    service := { w.service with hooks := none, bus := {} }
    operations := w.operations.map (·.unobserved w.now)
    tellings := []
    subscriptions := [] }

theorem akin_unobserved (h : w.Passive) : Akin lost w w.unobserved := by
  refine ⟨h, fun stream l hl => ?_, ?_⟩
  · cases stream <;> cases hl
  · have hops : (w.operations.map (·.unobserved w.now)).mapIdx (fun op o => o.stripped (lost op)) =
        w.operations.mapIdx fun op o => o.stripped (lost op) := by
      refine List.ext_getElem? fun i => ?_
      simp only [List.getElem?_mapIdx, List.getElem?_map, Option.map_map]
      exact Option.map_congr fun o _ => o.unobserved_stripped w.now (lost i)
    simp only [stripped, unobserved, hops]

theorem unobserved_balanced (h : w.books.Balanced) : w.unobserved.books.Balanced := by
  have hmade : w.unobserved.books.made = w.books.made := by
    show (w.operations.map (·.unobserved w.now)).filterMap (·.request) = w.operations.filterMap (·.request)
    rw [List.filterMap_map]
    exact List.filterMap_congr fun o _ => o.unobserved_request w.now
  have hundecided : w.unobserved.books.operations.countP (·.undecided) = w.books.operations.countP (·.undecided) := by
    show (w.operations.map (·.unobserved w.now)).countP (·.undecided) = w.operations.countP (·.undecided)
    rw [List.countP_map]
    exact List.countP_congr fun o _ => by rw [Function.comp_apply, o.unobserved_undecided w.now]
  refine ⟨⟨h.source, h.assistantSource, ?_, hmade ▸ h.issued, hmade ▸ h.distinct, hmade ▸ h.known, h.errors, h.successes,
    h.busy⟩, ?_, hundecided ▸ h.requests⟩
  · refine List.forall_mem_map.mpr fun o ho => ?_
    rw [o.unobserved_assistant]
    exact h.foreign o ho
  · refine List.forall_mem_map.mpr fun o ho context ask task hs => ?_
    obtain ⟨_, _, _, -, hdone⟩ | ⟨-, hsame⟩ := o.unobserved_cases w.now
    · rw [hdone] at hs
      cases hs
    · rw [hsame] at hs ⊢
      exact h.resolving o ho context ask task hs

theorem unobserved_numbered (w : World) : w.unobserved.Numbered := by
  refine ⟨List.forall_mem_nil _, List.forall_mem_map.mpr fun o _ telling queue outcome hs => ?_⟩
  obtain ⟨_, _, _, -, hdone⟩ | ⟨hnot, hsame⟩ := o.unobserved_cases w.now
  · rw [hdone] at hs
    cases hs
  · rw [hsame] at hs
    exact absurd hs (hnot telling queue outcome)

/-- Nobody comes to listen who does more than to return or raise, so nobody ever does. -/
theorem unfold_passive (h : w.Passive) (hb : w.books.Balanced) (hharmless : ∀ x ∈ xs, x.Harmless) :
    (w.unfold xs).Passive := by
  have hsame : Akin (fun _ => true) w w := .refl h
  obtain ⟨ys, hshadows⟩ := unfold_shadowed hsame hb hharmless fun _ _ => rfl
  exact hshadows.akin.passive

/-! ### What makes a difference to requests -/

/-- Whoever makes requests sees no difference: they are the same, under the same ids, and decided alike, unless their
outcome was given up (`lost`); the same is counted and published, other than by the assistant, which tells of an operation
only after hooks have been told; and the context and the providers are the same. -/
structure SameForCallers (lost : Nat → Bool) (w v : World) : Prop where
  now : v.now = w.now
  requests : v.operations.map (·.request) = w.operations.map (·.request)
  decided : ∀ op, lost op = false → v.decided? op = w.decided? op
  published : v.published.filter (!·.ofAssistant) = w.published.filter (!·.ofAssistant)
  metrics : v.service.metrics = w.service.metrics
  context : v.service.context = w.service.context
  ledger : v.service.ledger = w.service.ledger

theorem Akin.sameForCallers (h : Akin lost w v) : SameForCallers lost w v := by
  refine ⟨h.now, ?_, fun op => h.decided?, h.published, h.metrics, h.context, h.ledger⟩
  have hrequests : ∀ u : World, (u.stripped lost).operations.map (·.request) = u.operations.map (·.request) := by
    intro u
    refine List.ext_getElem? fun i => ?_
    simp only [World.stripped, List.getElem?_map, List.getElem?_mapIdx, Option.map_map]
    exact Option.map_congr fun o _ => o.stripped_request (lost i)
  have hsame := h.same fun u => u.operations.map (·.request)
  rwa [hrequests, hrequests] at hsame

/-- Two runs that are the same for whoever makes requests: the same is given in both, at the same ticks, and the same is
seen, other than by observers, above all the same calls of providers; in the end there is no difference to requests; and
whatever has been decided is delivered in both, unless the caller itself has given it up. -/
structure SameRuns (w : World) (xs : List Happening) (v : World) (ys : List Happening) : Prop where
  given : v.given ys = w.given xs
  seen : (v.seen ys).filter (!·.isTold) = (w.seen xs).filter (!·.isTold)
  same : SameForCallers (w.belated xs) (w.unfold xs) (v.unfold ys)
  delivers : ∀ op answer, w.belated xs op = false → (w.unfold xs).decided? op = some answer →
    (w.unfold xs).Delivers op answer ∧ (v.unfold ys).Delivers op answer

theorem Shadows.sameRuns (h : Shadows (w.belated xs) w xs v ys) (hw : w.Numbered) (hv : v.Numbered) :
    SameRuns w xs v ys := by
  have hsame := h.akin.sameForCallers
  refine ⟨h.given, ?_, hsame, fun op answer hop hd => ⟨?_, ?_⟩⟩
  · have hjournal : (v.unfold ys).clock.journal.filter (!·.isTold) = (w.unfold xs).clock.journal.filter (!·.isTold) :=
      congrArg Clockwork.journal h.akin.clock
    show (v.taken ys ++ (v.unfold ys).clock.journal.reverse).filter _ =
      (w.taken xs ++ (w.unfold xs).clock.journal.reverse).filter _
    rw [List.filter_append, List.filter_append, List.filter_reverse, List.filter_reverse, h.taken, hjournal]
  · exact delivers_decided (unfold_numbered hw xs) hd
  · exact delivers_decided (unfold_numbered hv ys) ((hsame.decided op hop).trans hd)

/-! ### What observers are told -/

/-- **Everyone who listens is told**, in the order in which they subscribed, whoever of them raises. -/
theorem fire_journal (h : w.Passive) (e : BusEvent) :
    (w.fire e).clock.journal =
      ((w.service.bus.emitter e.stream).listeners.map fun l => Entry.event l.name e).reverse ++ w.clock.journal := by
  rw [fire_of_passive h, foldl_log]

/-- **An update of the context** is up to the context alone: it is refused if the context refuses it, and otherwise leaves
behind and gives what the context does. -/
theorem setContext_outcome (h : w.Passive) (extras : Extras) (fields : Changes) :
    (w.setContext extras fields).map (fun r => (r.1.service.context, r.2)) =
      (w.service.context.set extras fields).map fun r => (r.1, r.2.context) := by
  unfold setContext commit
  rcases hset : w.service.context.set extras fields with f | ⟨context, update⟩
  · rfl
  · have hpassive : ({ w with service := { w.service with context } } : World).Passive := h
    have hfired : ({ w with service := { w.service with context } }.fire (.context update)).service.context = context := by
      rw [fire_of_passive hpassive, foldl_log]
    have hannounced : ∀ (u : World) (hook : Hook), (u.announce hook).service.context = u.service.context := by
      intro u hook
      unfold announce
      split <;> rfl
    show Except.ok (_, update.context) = Except.ok (context, update.context)
    rw [hannounced, hfired]

/-! ### A service and its observers -/

/-- Observers have no influence on what comes of the service from here on, as long as nobody comes to listen who does more
than to return or raise. -/
structure Uninfluenced (w : World) : Prop where
  /-- Whatever happens to the service happens in the same way where nobody observes it. -/
  unobserved : ∀ xs : List Happening, (∀ x ∈ xs, x.Harmless) →
    ∃ ys, (∀ y ∈ ys, ¬ y.Listens) ∧ SameRuns w xs w.unobserved ys
  /-- Whatever happens where nobody observes the service happens to it in the same way. -/
  observed : ∀ ys : List Happening, (∀ y ∈ ys, y.Harmless) →
    ∃ xs, (∀ x ∈ xs, ¬ x.Listens) ∧ SameRuns w.unobserved ys w xs
  /-- Everyone who listens is told of every event. -/
  told : ∀ e : BusEvent, (w.fire e).clock.journal =
    ((w.service.bus.emitter e.stream).listeners.map fun l => Entry.event l.name e).reverse ++ w.clock.journal
  /-- The context is updated as if nobody heard of it. -/
  updated : ∀ (extras : Extras) (fields : Changes),
    (w.setContext extras fields).map (fun r => (r.1.service.context, r.2)) =
      (w.service.context.set extras fields).map (fun r => (r.1, r.2.context)) ∧
    (w.unobserved.setContext extras fields).map (fun r => (r.1.service.context, r.2)) =
      (w.service.context.set extras fields).map fun r => (r.1, r.2.context)

theorem uninfluenced (h : w.Passive) (hb : w.books.Balanced) (hn : w.Numbered) : w.Uninfluenced := by
  have hakin : ∀ lost, Akin lost w w.unobserved := fun _ => akin_unobserved h
  refine ⟨fun xs hxs => ?_, fun ys hys => ?_, fire_journal h, fun extras fields => ⟨?_, ?_⟩⟩
  · obtain ⟨ys, hshadows⟩ := unfold_shadowed (hakin (w.belated xs)) hb hxs fun _ => id
    exact ⟨ys, hshadows.silent, hshadows.sameRuns hn w.unobserved_numbered⟩
  · obtain ⟨xs, hshadows⟩ :=
      unfold_shadowed (hakin (w.unobserved.belated ys)).symm (unobserved_balanced hb) hys fun _ => id
    exact ⟨xs, hshadows.silent, hshadows.sameRuns w.unobserved_numbered hn⟩
  · exact setContext_outcome h extras fields
  · exact setContext_outcome (hakin fun _ => false).passive' extras fields

end World

namespace Scenario.Service

open World

variable {s : Setting} {w : World} {before : List Happening}

theorem world_passive (hw : s.world = .ok w) : w.Passive := by
  obtain ⟨config, context, rfl⟩ := Setting.world_new hw
  intro stream l hl
  cases stream <;> cases hl

theorem world_numbered (hw : s.world = .ok w) : w.Numbered := by
  obtain ⟨config, context, rfl⟩ := Setting.world_new hw
  exact ⟨List.forall_mem_nil _, List.forall_mem_nil _⟩

/-- **Observers do not influence requests.**  Take a service at any point of its life, whatever has happened to it before,
and the same service without listeners and without a coordinator.  As long as nobody listens who does more than to return
or raise, and however long hooks take and whatever they raise: the same happens to both of them, and whoever makes requests
cannot tell them apart; an event reaches everyone who listens when it is published; and the context is updated in both as
if nobody heard of it. -/
theorem run_uninfluenced (hw : s.world = .ok w) (hpassive : (w.unfold before).Passive) : (w.unfold before).Uninfluenced :=
  uninfluenced hpassive (unfold_balanced (world_balanced hw) before) (unfold_numbered (world_numbered hw) before)

/-- A service with a hook that takes longer every time, and then fails. -/
def beset : Setting where
  config := []
  coordinator := some {
    hooks := some { delay := fun n _ => n + 2, raises := fun _ => some ⟨.outside .runtime "hook down" false, nofun⟩ }
    mounted := .other, refuses := false }
  providers := [.scripted {
    key := "slow", id := "slow", capabilities := [.chat], init := { outcome := .ok () }, disposeFault := none
    script := ⟨{ delay := 1, outcome := .ok fun kind => .ok (.emptyFor kind) }, []⟩ }]
  cancelled := []
  resolver := none
  beforehand := []
  mounts := false
  steps := []
  suffix := fun _ _ => "0"

/-- Two listen, and the first of them fails. -/
def overseen : List Happening := [
  .occurs (.listen .response "broken" (some .fail)),
  .occurs (.listen .response "auditor" none),
  .occurs (.register ⟨0, "slow", [.chat]⟩ none)]

/-- A request is answered, and its hook begins to be told. -/
def inquiry : List Happening := [
  .occurs (.begin (.service "ask" .chat (.text "hello") none) .none),
  .turn,
  .pass 1,
  .turn,
  .occurs (.resume 0)]

/-- The caller still waits for the hook, and will get the answer, as it does where nobody observes the service; both
listeners have been told. -/
theorem run_uninfluenced_beset :
    ∃ w, beset.world = .ok w ∧ (w.unfold overseen).Passive ∧ (∀ x ∈ inquiry, x.Harmless) ∧
      ((w.unfold overseen).unfold inquiry).outcome? 0 = none ∧
      ((w.unfold overseen).seen inquiry).countP (·.isTold) = 3 ∧
      ∃ ys, SameRuns (w.unfold overseen) inquiry (w.unfold overseen).unobserved ys ∧
        ((w.unfold overseen).unobserved.unfold ys).Delivers 0 (.ok (.result (.emptyFor .chat))) := by
  have hoverseen : ∀ x ∈ overseen, x.Harmless := by
    simp [overseen, Happening.Harmless, Orchestra.Passive]
  have hinquiry : ∀ x ∈ inquiry, x.Harmless := by
    simp [inquiry, Happening.Harmless]
  have hw : beset.world = .ok _ := rfl
  have hpassive := unfold_passive (world_passive hw) (world_balanced hw) hoverseen
  have huninfluenced := run_uninfluenced hw hpassive
  obtain ⟨ys, -, hsame⟩ := huninfluenced.unobserved inquiry hinquiry
  exact ⟨_, hw, hpassive, hinquiry, rfl, rfl, ys, hsame, (hsame.delivers 0 _ rfl rfl).2⟩

end Scenario.Service

end Orchestra
