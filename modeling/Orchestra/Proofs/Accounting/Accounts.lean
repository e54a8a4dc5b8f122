import Orchestra.Proofs.Accounting.Discipline
import Orchestra.Proofs.Runs.Happening

/-!
# Orchestra.Proofs.Accounting.Accounts — the accounts of a service from its beginning

A new service has made no requests, so its books balance and stay so.  What it shows as its metrics is then what can be
counted in the events of its requests, at every point of every run, and every request has its account.
-/

namespace Orchestra

open Books

/-- The mean of durations in milliseconds; zero if there are none. -/
def meanOf : List Nat → Binary64
  | [] => .zero
  | ticks => .ofRatio false (total ticks * 125) (8 * ticks.length)

theorem meanMillis_total (ticks : List Nat) : Time.meanMillis (total ticks) ticks.length = meanOf ticks := by
  cases ticks with
  | nil => rfl
  | cons t ticks =>
    have hmax : max (t :: ticks).length 1 = (t :: ticks).length := Nat.max_eq_left (Nat.succ_pos _)
    rw [Time.meanMillis, hmax, meanOf]
    exact nofun

namespace World

variable {w : World}

/-- The events of requests to the service. -/
def requestEvents (w : World) : List BusEvent := w.published.filter (·.ofService)

/-- The requests that have been made and not yet decided. -/
def undecided (w : World) : Nat := w.operations.countP (·.undecided)

/-- What the metrics show is what the events tell. -/
structure Tallied (w : World) : Prop where
  requests : w.service.metrics.requests =
    w.service.metrics.errors + (durations w.requestEvents).length + w.undecided
  errors : w.service.metrics.errors = w.requestEvents.countP (·.isError)
  mean : w.service.metrics.meanMillis = meanOf (durations w.requestEvents)

theorem tallied_of_balanced (h : w.books.Balanced) : w.Tallied where
  requests := by
    have hrequests := h.requests
    rw [h.successes] at hrequests
    exact hrequests
  errors := h.errors
  mean := by
    have hsuccesses : w.service.successes = (durations w.requestEvents).length := h.successes
    have hbusy : w.service.busy = total (durations w.requestEvents) := h.busy
    show Time.meanMillis w.service.busy w.service.successes = _
    rw [hsuccesses, hbusy, meanMillis_total]

/-- Requests that have the same id are one, and there are events of no others. -/
structure Identified (w : World) : Prop where
  distinct : ∀ (op op' : Nat) (o o' : Operation) (r r' : RequestRecord),
    w.operations[op]? = some o → w.operations[op']? = some o' → o.request = some r → o'.request = some r' →
      r.id = r'.id → op = op'
  owned : ∀ e ∈ w.requestEvents, ∃ (op : Nat) (o : Operation) (r : RequestRecord),
    w.operations[op]? = some o ∧ o.request = some r ∧ e.id? = some r.id

theorem identified_of_balanced (h : w.books.Balanced) : w.Identified where
  distinct op op' o o' r r' ho ho' hr hr' hid := h.op_of_id ho hr ho' hr' hid
  owned e he := by
    obtain ⟨r, hr, hid⟩ := h.known e he
    obtain ⟨o, ho, hr⟩ := List.mem_filterMap.mp hr
    obtain ⟨op, ho⟩ := List.mem_iff_getElem?.mp ho
    exact ⟨op, o, r, ho, hr, hid⟩

theorem Follows.balanced {v : World} (hw : w.books.Balanced) (h : Follows w v) : v.books.Balanced := by
  obtain ⟨occs, rfl⟩ := h
  exact after_balanced occs hw

theorem unfold_balanced (hw : w.books.Balanced) (xs : List Happening) : (w.unfold xs).books.Balanced :=
  Follows.balanced hw (Unfolds.follows ⟨xs, rfl⟩)

theorem Follows.tallied {v : World} (hw : w.books.Balanced) (h : Follows w v) : v.Tallied :=
  tallied_of_balanced (h.balanced hw)

end World

namespace Scenario.Service

open World

variable {s : Setting} {w : World}

/-- A new service has done nothing yet. -/
theorem world_books (hw : s.world = .ok w) : w.books = ⟨w.handed, 0, [], 0, 0, 0, 0, .service, .assistant, []⟩ := by
  obtain ⟨config, context, rfl⟩ := Setting.world_new hw
  rfl

theorem world_balanced (hw : s.world = .ok w) : w.books.Balanced := by
  rw [world_books hw]
  refine ⟨⟨rfl, rfl, List.forall_mem_nil _, List.forall_mem_nil _, .nil, List.forall_mem_nil _, rfl, rfl, rfl⟩, ?_, rfl⟩
  exact List.forall_mem_nil _

/-- It has no requests to account for. -/
theorem world_accounted (hw : s.world = .ok w) : w.Accounted [] := by
  intro op o r ho
  have hops : w.operations = [] := congrArg Books.operations (world_books hw)
  rw [after_nil, hops] at ho
  cases ho

/-- **Accounts and events** of a service.  Whatever occurs, in whatever order: the metrics show what the events of the
requests tell, ids tell the requests apart, and every request that was made has its account. -/
theorem run_accounts (hw : s.world = .ok w) (occs : List Occurrence) :
    (w.after occs).Tallied ∧ (w.after occs).Identified ∧ w.Accounted occs := by
  have hbalanced := world_balanced hw
  have hafter := after_balanced occs hbalanced
  exact ⟨tallied_of_balanced hafter, identified_of_balanced hafter,
    after_accounted hbalanced (world_accounted hw) occs⟩

/-- A service with a hook that takes its time. -/
def watched : Setting where
  config := []
  coordinator := some { hooks := some { delay := 2 }, mounted := .other, refuses := false }
  providers := []
  cancelled := []
  resolver := none
  beforehand := []
  mounts := false
  steps := []
  suffix := fun _ _ => "0"

/-- Two requests at once: one is interrupted before it is decided, the other while the hook is told of its success. -/
def rush : List Occurrence := [
  .register ⟨0, "alpha", [.chat]⟩ none,
  .begin (.service "ask" .chat (.text "hello") none) .none,
  .begin (.service "spare" .chat (.text "hello") none) .none,
  .abort 1,
  .clock { now := 3, ended := [⟨0, 3, .ok (.result (.emptyFor .chat))⟩] },
  .resume 0,
  .abort 0]

theorem run_rush :
    ∃ w, watched.world = .ok w ∧ (w.after rush).Tallied ∧ w.Accounted rush ∧
      (w.after rush).outcome? 0 = some (.error .interrupted, 3) ∧ durations (w.after rush).requestEvents = [3] ∧
      (w.after rush).service.metrics.requests = 2 ∧ (w.after rush).service.metrics.errors = 1 := by
  obtain ⟨htallied, -, haccounted⟩ := run_accounts (s := watched) rfl rush
  exact ⟨_, rfl, htallied, haccounted, rfl, rfl, rfl, rfl⟩

/-! ### A result that cannot be displayed -/

/-- The limit is so low that the length of what is to be cut off cannot be written. -/
def Low (limit : Int) : Prop := limit + (Nat.pow 10 Number.digitLimit : Nat) ≤ 1

theorem text_of_low {limit : Int} {t : String} (hlimit : Low limit) (ht : t.toList ≠ []) :
    Display.text limit t = .error Display.unwritable := by
  unfold Low at hlimit
  generalize hmost : Nat.pow 10 Number.digitLimit = most at hlimit
  have hpow : ∀ n, 0 < Nat.pow 10 n := fun n => Nat.pow_pos (by decide)
  have hpos : 0 < most := hmost ▸ hpow _
  have hlength : 0 < t.toList.length := List.length_pos_of_ne_nil ht
  have hlong : (Number.int (t.toList.length - limit)).shown? = none := by
    rw [Number.shown?, hmost]
    exact if_neg (by omega)
  unfold Display.text
  dsimp only
  rw [if_pos (by omega), hlong]

theorem result_of_low {limit : Int} {r : ChatResponse} {t : String} (hlimit : Low limit) (hr : r.message = some t)
    (ht : t.toList ≠ []) : Display.result limit (.chat r) = .error Display.unwritable := by
  simp only [Display.result, Display.cut, hr, Option.mapM_some, text_of_low hlimit ht]
  rfl

/-- A service that displays results for debugging. -/
def displaying (limit : Int) : Setting := {
  watched with
  config := [("debug", .bool true), ("debug_truncate_length", .number (.int limit))]
  coordinator := none }

def greeting : Result := .chat { message := some "hi" }

/-- A request that is answered after a tick. -/
def greeted : List Occurrence := [
  .register ⟨0, "alpha", [.chat]⟩ none,
  .begin (.service "ask" .chat (.text "hello") none) .none,
  .clock { now := 1, ended := [⟨0, 1, .ok (.result greeting)⟩] },
  .resume 0]

theorem run_greeted (limit : Int) :
    ∃ w, (displaying limit).world = .ok w ∧
      (∃ id, (w.after greeted).published = [.response id (.capability .chat) (.result greeting) 1]) ∧
      (w.after greeted).outcome? 0 = some ((w.handed greeting).map .result, 1) ∧
      w.displayed? greeting = some (Display.result limit greeting) := by
  obtain ⟨w, hw⟩ : ∃ w, (displaying limit).world = .ok w := ⟨_, rfl⟩
  refine ⟨w, hw, ?_⟩
  cases hw
  exact ⟨⟨_, rfl⟩, rfl, rfl⟩

/-- The highest limit that is low. -/
def lowLimit : Int := 1 - (Nat.pow 10 Number.digitLimit : Nat)

/-- With a low limit, the event tells of a result, nobody aborts the request, and yet its caller is not given the result. -/
theorem run_undisplayed :
    ∃ w, (displaying lowLimit).world = .ok w ∧
      (∃ id, (w.after greeted).published = [.response id (.capability .chat) (.result greeting) 1]) ∧
      (w.after greeted).outcome? 0 = some (.error .unwritable, 1) ∧ ∀ op, ¬ w.AbandonedIn greeted op := by
  have hlow : Low lowLimit := by unfold Low lowLimit; omega
  obtain ⟨w, hw, htold, houtcome, hdisplayed⟩ := run_greeted lowLimit
  have hhanded : w.handed greeting = .error .unwritable := by
    unfold World.handed
    rw [hdisplayed, greeting, result_of_low hlow rfl (by decide)]
    rfl
  refine ⟨w, hw, htold, houtcome.trans (by rw [hhanded]; rfl), ?_⟩
  rintro op ⟨before, x, later, hsplit, rfl, -⟩
  have hmem : Occurrence.abort op ∈ greeted := hsplit ▸ List.mem_append_right _ List.mem_cons_self
  simp [greeted] at hmem

/-! ### What a scenario shows -/

namespace Session

variable {s : Session} {m : Metrics} {policy : Policy}

theorem reach_ne_metrics (op : Nat) : (s.reach op).2 ≠ some (.metrics m policy) := by
  unfold reach
  dsimp only
  split
  · exact nofun
  · split <;> exact nofun

theorem register_ne_metrics (index : Nat) (name : String) (kinds : Except Fault (Option (List Capability))) :
    (s.register index name kinds).2 ≠ some (.metrics m policy) := by
  unfold register
  split
  · exact nofun
  · exact nofun
  · split <;> exact nofun

/-- Metrics are only shown when asked for, and then they are those of the world as it is. -/
theorem step_metrics {step : Step} (h : (s.step step).2 = some (.metrics m policy)) :
    m = s.world.service.metrics := by
  cases step with
  | metrics => cases h; rfl
  | call order token => exact absurd h (reach_ne_metrics _)
  | join name =>
    unfold Session.step at h
    dsimp only at h
    split at h
    · cases h
    · exact absurd h (reach_ne_metrics _)
  | register index name kinds => exact absurd h (register_ne_metrics _ _ _)
  | add index name kinds =>
    unfold Session.step at h
    dsimp only at h
    split at h
    · cases h
    · exact absurd h (register_ne_metrics _ _ _)
    · cases h
  | abort name =>
    unfold Session.step at h
    dsimp only at h
    split at h <;> cases h
  | sleep ticks =>
    unfold Session.step at h
    dsimp only at h
    split at h <;> cases h
  | dispose name =>
    unfold Session.step at h
    dsimp only at h
    split at h
    · cases h
    · next handle _ =>
      rcases hf : (s.world.dispose handle).2 with _ | f <;> rw [hf] at h <;> cases h
  | onDispose name =>
    unfold Session.step at h
    dsimp only at h
    split at h <;> cases h
  | setContext extras fields =>
    unfold Session.step at h
    dsimp only at h
    split at h <;> cases h
  | close =>
    unfold Session.step at h
    dsimp only at h
    rcases hf : s.world.close.2 with _ | f <;> rw [hf] at h <;> cases h
  | start _ _ _ | cancel _ | providers _ | disposeBridge _ | listen _ _ _ | unlisten _ | getContext | clearContext
  | history | faulty _ => cases h

theorem run_metrics {steps : List Step} {answer : Answer} (h : .inl answer ∈ (run s steps).1)
    (hm : answer.reply = .metrics m policy) : ∃ v, Follows s.world v ∧ m = v.service.metrics := by
  induction steps generalizing s with
  | nil => cases h
  | cons step rest ih =>
    have hstep := (s.step_unfolds step).follows
    rw [run] at h
    split at h
    · cases List.mem_singleton.mp h
    · next hs =>
      rw [hs] at hstep
      rcases List.mem_cons.mp h with heq | hrest
      · cases heq
        exact ⟨s.world, Follows.refl _, step_metrics ((congrArg Prod.snd hs).trans (congrArg some hm))⟩
      · obtain ⟨v, hv, heq⟩ := ih hrest
        exact ⟨v, ((hstep.trans (settle_unfolds _).follows).trans (clock_follows _ _)).trans hv, heq⟩

end Session

theorem foldl_updateBeforehand_follows (updates : List Changes) (w : World) :
    Follows w (updates.foldl updateBeforehand w) := by
  induction updates generalizing w with
  | nil => exact Follows.refl w
  | cons d updates ih => exact (updateBeforehand_unfolds w d).follows.trans (ih _)

/-- **The metrics that a scenario shows**, mounted or not and whatever its steps are, are those that the events tell. -/
theorem run_shows_tallied {report : Report} {answer : Answer} {m : Metrics} {policy : Policy} (hw : s.world = .ok w)
    (hr : run s = .ok report) (h : .inl answer ∈ report.answers) (hm : answer.reply = .metrics m policy) :
    ∃ v, Follows w v ∧ v.Tallied ∧ m = v.service.metrics := by
  have hshown : ∀ {v : World} {steps : List Step}, Follows w v → .inl answer ∈ (Session.run { world := v } steps).1 →
      ∃ v, Follows w v ∧ v.Tallied ∧ m = v.service.metrics := by
    intro v steps hv hmem
    obtain ⟨u, hu, heq⟩ := Session.run_metrics hmem hm
    exact ⟨u, hv.trans hu, (hv.trans hu).tallied (world_balanced hw), heq⟩
  unfold run at hr
  split at hr
  · split at hr
    · cases hr
      cases List.mem_singleton.mp h
      cases hm
    · next hmount =>
      cases hr
      rcases List.mem_cons.mp h with heq | hrest
      · cases heq
        cases hm
      · exact hshown (mount_unfolds hw hmount).follows hrest
  · rw [hw] at hr
    cases hr
    exact hshown (foldl_updateBeforehand_follows s.beforehand w) h

end Scenario.Service

end Orchestra
