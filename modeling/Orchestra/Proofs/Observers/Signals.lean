import Mathlib.Data.List.Induction
import Mathlib.Data.List.Nodup
import Orchestra.Proofs.Observers.Subscriptions

/-!
# Orchestra.Proofs.Observers.Signals — what a cancellation source runs, and when

A source keeps callbacks, not registrations: a function that removes a callback removes it however it came to stand.  What is
asked of a source (`requestsFrom`) therefore decides who stands registered (`registered`), and with that every call that an
action makes, before, at and after the first cancellation (`run_signals`).
-/

namespace Orchestra.Scenario.Emitter

/-! ### What is asked of a source -/

/-- A registration of a callback, or a call of a function that removes it. -/
inductive Request where
  | register (callback : String)
  | withdraw (callback : String)
  deriving DecidableEq, Repr

/-- The callbacks that were registered and not removed since, in the order of their registrations. -/
def Request.standing : List Request → List String
  | [] => []
  | .register c :: rest => if .withdraw c ∈ rest then standing rest else c :: standing rest
  | .withdraw _ :: rest => standing rest

namespace Action

/-- The callback that the function kept under a name removes: the one that was last registered under it. -/
def keptAs (actions : List Action) (name : String) : Option String :=
  (actions.filterMap fun a => if a.name = name then a.add else none).getLast?

/-- The callback that an action removes, after those before it. -/
def removes (before : List Action) (a : Action) : Option String := a.remove.bind (keptAs (before ++ [a]))

/-- What an action asks of a source, after those before it. -/
def requests (before : List Action) (a : Action) : List Request :=
  (a.add.map .register).toList ++ ((a.removes before).map .withdraw).toList

def requestsFrom (before : List Action) : List Action → List Request
  | [] => []
  | a :: rest => a.requests before ++ requestsFrom (before ++ [a]) rest

/-- The callbacks that stand registered after these actions, unless one of them cancels. -/
def registered (actions : List Action) : List String := Request.standing (requestsFrom [] actions)

def cancelled (actions : List Action) : Bool := actions.any (·.cancel)

/-- The callbacks that a source runs on an action, after those before it. -/
def due (before : List Action) (a : Action) : List String :=
  if cancelled before then a.add.toList else if a.cancel then registered (before ++ [a]) else []

end Action

open Orchestra.Scenario.Emitter.Action

/-- What comes back from a callback that is called; one that acts may raise what it meets. -/
inductive Raises (callbacks : List (String × Callback)) (c : String) : Option Fault → Prop where
  | nothing (hfails : ∀ failure, callbacks.lookup c ≠ some (.fails failure)) : Raises callbacks c none
  | own (failure : Complaint) (hfails : callbacks.lookup c = some (.fails failure)) :
      Raises callbacks c (some failure.fault)
  | met {b : Action} (fault : Fault) (hacts : callbacks.lookup c = some (.acts b)) : Raises callbacks c (some fault)

/-- The given callbacks are called one after the other, whatever they raise; one that acts may cause further calls before
the next one. -/
inductive InTurn (callbacks : List (String × Callback)) : List String → List Call → Prop where
  | nil : InTurn callbacks [] []
  | cons {c : String} {names : List String} {aside calls : List Call}
      (hplain : (∀ b, callbacks.lookup c ≠ some (.acts b)) → aside = []) (hrest : InTurn callbacks names calls) :
      InTurn callbacks (c :: names) (⟨c, none⟩ :: (aside ++ calls))

/-- What a source makes of an action, after those before it. -/
structure Signals (callbacks : List (String × Callback)) (before : List Action) (a : Action) (answer : Answer) :
    Prop where
  view : answer.view = .token (cancelled (before ++ [a])) true
  calls : InTurn callbacks (due before a) answer.calls
  once : (due before a).Nodup
  /-- A callback that was removed does not run, unless it is registered again. -/
  removed : ∀ earlier b later c, before = earlier ++ b :: later → b.removes earlier = some c →
    (∀ a' ∈ later, a'.add ≠ some c) → a.add ≠ some c → c ∉ due before a
  /-- Apart from the check, only a callback raises that is registered too late, and so is due at once. -/
  fault : ∃ raised : Option Fault,
    answer.fault = raised.or (a.check.bind fun operation =>
      if cancelled (before ++ [a]) then some (.cancelled operation none) else none) ∧
    ((cancelled before = false ∨ a.add = none) → raised = none) ∧
    (cancelled before = true → ∀ c, a.add = some c → Raises callbacks c raised)

theorem InTurn.append {callbacks : List (String × Callback)} {front back : List String} {calls calls' : List Call}
    (h : InTurn callbacks front calls) (h' : InTurn callbacks back calls') :
    InTurn callbacks (front ++ back) (calls ++ calls') := by
  induction h with
  | nil => exact h'
  | cons hplain _ ih =>
    simp only [List.cons_append, List.append_assoc]
    exact .cons hplain ih

/-- Where none of them acts, nothing else is called. -/
theorem InTurn.eq_map {callbacks : List (String × Callback)} {names : List String} {calls : List Call}
    (h : InTurn callbacks names calls) (hplain : ∀ c ∈ names, ∀ b, callbacks.lookup c ≠ some (.acts b)) :
    calls = names.map fun c => ⟨c, none⟩ := by
  induction h with
  | nil => rfl
  | cons haside _ ih =>
    rw [haside (hplain _ List.mem_cons_self), ih fun c hc => hplain c (List.mem_cons_of_mem _ hc)]
    rfl

/-! ### Who stands registered -/

namespace Request

theorem standing_append_register (requests : List Request) (c : String) :
    standing (requests ++ [.register c]) = standing requests ++ [c] := by
  induction requests with
  | nil => simp [standing]
  | cons r rest ih =>
    cases r with
    | register d => by_cases hd : .withdraw d ∈ rest <;> simp [standing, hd, ih]
    | withdraw d => simpa [standing] using ih

theorem standing_append_withdraw (requests : List Request) (c : String) :
    standing (requests ++ [.withdraw c]) = (standing requests).filter (· != c) := by
  induction requests with
  | nil => rfl
  | cons r rest ih =>
    cases r with
    | register d =>
      by_cases hd : .withdraw d ∈ rest
      · simp [standing, hd, ih]
      · by_cases hdc : d = c
        · subst hdc
          simp [standing, hd, ih]
        · simp [standing, hd, hdc, ih]
    | withdraw d => simpa [standing] using ih

/-- Only a registration makes a callback stand. -/
theorem not_mem_standing_append {requests further : List Request} {c : String} (h : c ∉ standing requests)
    (hfurther : .register c ∉ further) : c ∉ standing (requests ++ further) := by
  induction further using List.reverseRecOn with
  | nil => simpa using h
  | append_singleton further r ih =>
    have hc := ih fun hmem => hfurther (List.mem_append_left _ hmem)
    rw [← List.append_assoc]
    cases r with
    | register d =>
      have hdc : c ≠ d := fun hdc => hfurther (by simp [hdc])
      rw [standing_append_register]
      simp [hc, hdc]
    | withdraw d =>
      rw [standing_append_withdraw]
      exact fun hmem => hc (List.mem_filter.mp hmem).1

end Request

namespace Action

open Request

variable {before actions : List Action} {a : Action}

theorem requestsFrom_append (before xs ys : List Action) :
    requestsFrom before (xs ++ ys) = requestsFrom before xs ++ requestsFrom (before ++ xs) ys := by
  induction xs generalizing before with
  | nil => simp [requestsFrom]
  | cons x xs ih => simp [requestsFrom, ih]

theorem cancelled_append_singleton (before : List Action) (a : Action) :
    cancelled (before ++ [a]) = (cancelled before || a.cancel) := by simp [cancelled]

theorem keptAs_append_singleton (before : List Action) (a : Action) (name : String) :
    keptAs (before ++ [a]) name = (if a.name = name then a.add else none).or (keptAs before name) := by
  rw [keptAs, List.filterMap_append, List.getLast?_append, keptAs]
  congr 1
  cases hadd : (if a.name = name then a.add else none) <;> simp [hadd]

/-- The registration of an action, and then its removal. -/
theorem registered_append_singleton (before : List Action) (a : Action) :
    registered (before ++ [a]) =
      ((a.removes before).elim (registered before ++ a.add.toList) fun c =>
        (registered before ++ a.add.toList).filter (· != c)) := by
  have hadded : standing (requestsFrom [] before ++ (a.add.map .register).toList) =
      registered before ++ a.add.toList := by
    cases a.add with
    | none => simp [registered]
    | some c => simpa [registered] using standing_append_register _ c
  rw [registered, requestsFrom_append]
  simp only [requestsFrom, requests, List.nil_append, List.append_nil, ← List.append_assoc]
  cases a.removes before with
  | none => simpa using hadded
  | some c => simp only [Option.map_some, Option.toList_some, standing_append_withdraw, hadded, Option.elim_some]

-- a function that was called before removes its callback again where it was registered anew
example : registered [{ add := some "a", name := "1" }, { add := some "b", name := "2" }, { remove := some "1" },
    { add := some "a", name := "3" }, { remove := some "1" }] = ["b"] := by decide

theorem register_mem_requestsFrom {c : String} (h : .register c ∈ requestsFrom before actions) :
    ∃ a ∈ actions, a.add = some c := by
  induction actions generalizing before with
  | nil => simp [requestsFrom] at h
  | cons a rest ih =>
    rw [requestsFrom, List.mem_append] at h
    rcases h with h | h
    · exact ⟨a, List.mem_cons_self, by simpa [requests] using h⟩
    · obtain ⟨b, hb, hadd⟩ := ih h
      exact ⟨b, List.mem_cons_of_mem _ hb, hadd⟩

/-- A callback that was removed does not stand registered, unless it was registered again. -/
theorem not_mem_registered {earlier later : List Action} {b : Action} {c : String} (hremoves : b.removes earlier = some c)
    (hlater : ∀ a ∈ later, a.add ≠ some c) : c ∉ registered (earlier ++ b :: later) := by
  have hgone : c ∉ registered (earlier ++ [b]) := by
    rw [registered_append_singleton, hremoves]
    simp
  rw [List.append_cons, registered, requestsFrom_append]
  refine not_mem_standing_append hgone fun hagain => ?_
  obtain ⟨a, ha, hadd⟩ := register_mem_requestsFrom hagain
  exact hlater a ha hadd

theorem not_mem_due {earlier later : List Action} {b : Action} {c : String} (hremoves : b.removes earlier = some c)
    (hlater : ∀ a ∈ later, a.add ≠ some c) (hadd : a.add ≠ some c) : c ∉ due (earlier ++ b :: later) a := by
  unfold due
  split
  · simpa using hadd
  · split
    · rw [List.append_assoc, List.cons_append]
      refine not_mem_registered hremoves fun a' ha' => ?_
      rcases List.mem_append.mp ha' with ha' | ha'
      · exact hlater a' ha'
      · exact List.mem_singleton.mp ha' ▸ hadd
    · simp

end Action

/-! ### After the cancellation -/

/-- What is left of a source once it is cancelled. -/
def Ground.ended : Ground := .source ⟨true, []⟩

/-- Nothing happened to what callbacks are registered on. -/
structure Aside (s s' : State) : Prop where
  callbacks : s'.callbacks = s.callbacks
  ground : s'.ground = s.ground
  calls : ∃ new, s'.calls = new ++ s.calls

theorem Aside.refl (s : State) : Aside s s := ⟨rfl, rfl, [], rfl⟩

/-- An action on a source is its registration, its removal, its cancellation and its check, one after the other. -/
theorem State.act_source {s : State} {depth : Nat} {a : Action} {c : CancellationSource String} (hadd : a.add = none)
    (hremove : a.remove = none) (hground : s.ground = .source c) :
    s.act (depth + 1) a =
      let s' := if a.cancel then { s with ground := .source c.cancel.1 }.callAll (State.act depth) none c.cancel.2
        else s
      (s', a.check.bind s'.check) := by
  cases hcancel : a.cancel <;> cases hcheck : a.check <;> cases hfire : a.fire <;>
    simp [State.act, hadd, hremove, hground, hcancel, hcheck, hfire]

theorem State.act_raises {s s' : State} {depth : Nat} {a : Action} {c : String} {fault : Fault} (ha : a.add = some c)
    (hadd : s.add (State.act depth) c a.name = (s', some fault)) : s.act (depth + 1) a = (s', some fault) := by
  simp only [State.act, ha, hadd]

/-- An action whose removal does nothing. -/
theorem State.act_unremoved {s : State} {depth : Nat} {a : Action} {result : State × Option Fault} (hadd : a.add = none)
    (hremove : ∀ name, s.remove name = s) (hrest : s.act (depth + 1) { a with remove := none } = result) :
    s.act (depth + 1) a = result := by
  cases ha : a.remove with
  | none => rw [← hrest, ← ha]
  | some name => rw [State.act_remove hadd ha, hremove, hrest]

section Ended

variable {s : State} (hground : s.ground = .ended)

include hground

theorem State.check_ended (operation : Option String) : s.check operation = some (.cancelled operation none) := by
  simp [State.check, State.isCancelled, hground, Ground.ended]

theorem State.remove_ended (name : String) : s.remove name = s := by
  obtain ⟨ground, callbacks, kept, calls⟩ := s
  subst hground
  unfold State.remove
  cases kept.lookup name <;> rfl

theorem State.act_ended {depth : Nat} {a : Action} (hadd : a.add = none) :
    s.act (depth + 1) a = (s, a.check.bind fun operation => some (.cancelled operation none)) := by
  refine State.act_unremoved hadd (State.remove_ended hground) ?_
  rw [State.act_source (a := { a with remove := none }) hadd rfl hground]
  simp only [← State.check_ended hground]
  cases a.cancel with
  | false => rfl
  | true =>
    obtain ⟨ground, callbacks, kept, calls⟩ := s
    subst hground
    rfl

/-- A callback that comes too late is called at once, and kept if it returns. -/
theorem State.add_ended (act : State → Action → State × Option Fault) (c name : String) :
    s.add act c name =
      ((s.call act c none).2.elim ((s.call act c none).1.keep name c) fun _ => (s.call act c none).1,
        (s.call act c none).2) := by
  simp only [State.add, hground, Ground.ended, CancellationSource.onCancelled, if_true]
  rcases s.call act c none with ⟨s', _ | fault⟩ <;> rfl

end Ended

/-- The given callbacks were called in turn, and nothing else happened. -/
structure Ran (names : List String) (s s' : State) : Prop where
  callbacks : s'.callbacks = s.callbacks
  ground : s'.ground = s.ground
  calls : ∃ new, s'.calls.reverse = s.calls.reverse ++ new ∧ InTurn s.callbacks names new

theorem Ran.aside {names : List String} {s s' : State} (h : Ran names s s') : Aside s s' := by
  obtain ⟨new, hcalls, -⟩ := h.calls
  exact ⟨h.callbacks, h.ground, new.reverse, by simpa using congrArg List.reverse hcalls⟩

theorem State.call_raises (act : State → Action → State × Option Fault) (s : State) (c : String) (event : Option Value) :
    Raises s.callbacks c (s.call act c event).2 := by
  cases hlookup : s.callbacks.lookup c with
  | none =>
    simp only [State.call, hlookup]
    exact .nothing (by simp [hlookup])
  | some callback =>
    cases callback with
    | silent =>
      simp only [State.call, hlookup]
      exact .nothing (by simp [hlookup])
    | fails =>
      simp only [State.call, hlookup]
      exact .own _ hlookup
    | acts b =>
      simp only [State.call, hlookup]
      cases (act { s with calls := ⟨c, event⟩ :: s.calls } b).2 with
      | none => exact .nothing (by simp [hlookup])
      | some fault => exact .met fault hlookup

section Drain

variable {s : State} {act : State → Action → State × Option Fault}
  (hact : ∀ (s : State) (a : Action), s.ground = .ended → Aside s (act s a).1)

include hact

theorem State.call_ran (hground : s.ground = .ended) (c : String) : Ran [c] s (s.call act c none).1 := by
  by_cases hplain : ∀ b, s.callbacks.lookup c ≠ some (.acts b)
  · rw [State.call_plain hplain]
    exact ⟨rfl, rfl, [⟨c, none⟩], by simp, .cons (fun _ => rfl) .nil⟩
  · obtain ⟨b, hlookup⟩ : ∃ b, s.callbacks.lookup c = some (.acts b) := by simpa using hplain
    obtain ⟨hcallbacks, hground', new, hcalls⟩ := hact { s with calls := ⟨c, none⟩ :: s.calls } b hground
    simp only [State.call, hlookup]
    refine ⟨hcallbacks, hground', ⟨c, none⟩ :: (new.reverse ++ []), by simp [hcalls], ?_⟩
    exact .cons (fun h => absurd h hplain) .nil

/-- The drain: the induction is on the callbacks that are left, and what one of them raises is lost. -/
theorem State.callAll_ran (hground : s.ground = .ended) (names : List String) :
    Ran names s (s.callAll act none names) := by
  induction names generalizing s with
  | nil => exact ⟨rfl, rfl, [], by simp [State.callAll], .nil⟩
  | cons c names ih =>
    obtain ⟨hcallbacks, hground', new, hcalls, hfirst⟩ := State.call_ran hact hground c
    obtain ⟨hcallbacks', hground'', rest, hcalls', hrest⟩ := ih (hground'.trans hground)
    refine ⟨hcallbacks'.trans hcallbacks, hground''.trans hground', new ++ rest, ?_, ?_⟩
    · rw [← List.append_assoc, ← hcalls]
      exact hcalls'
    · rw [hcallbacks] at hrest
      exact hfirst.append hrest

end Drain

/-- An action that registers a callback too late: what the callback raises goes before the check. -/
theorem State.act_late {s : State} {depth : Nat} {a : Action} {c : String}
    (hact : ∀ (s : State) (a : Action), s.ground = .ended → Aside s (s.act depth a).1) (hground : s.ground = .ended)
    (hadd : a.add = some c) :
    ∃ s' raised,
      s.act (depth + 1) a = (s', raised.or (a.check.bind fun operation => some (.cancelled operation none))) ∧
      Ran [c] s s' ∧ Raises s.callbacks c raised := by
  have hran := State.call_ran hact hground c
  have hraises := State.call_raises (State.act depth) s c none
  have hadded := State.add_ended hground (State.act depth) c a.name
  cases hfault : (s.call (State.act depth) c none).2 with
  | some fault =>
    simp only [hfault, Option.elim_some] at hadded
    exact ⟨_, some fault, State.act_raises hadd hadded, hran, hfault ▸ hraises⟩
  | none =>
    simp only [hfault, Option.elim_none] at hadded
    have hkept : Ran [c] s ((s.call (State.act depth) c none).1.keep a.name c) :=
      ⟨hran.callbacks, hran.ground, hran.calls⟩
    refine ⟨_, none, ?_, hkept, hfault ▸ hraises⟩
    rw [State.act_add hadd hadded]
    exact State.act_ended (hkept.ground.trans hground) rfl

/-- Whatever is done to a source that is cancelled, it stays as it is; the induction is on how deeply callbacks nest. -/
theorem State.act_aside (depth : Nat) (s : State) (a : Action) (hground : s.ground = .ended) :
    Aside s (s.act depth a).1 := by
  induction depth generalizing s a with
  | zero => exact Aside.refl s
  | succ depth ih =>
    cases hadd : a.add with
    | none =>
      rw [State.act_ended hground hadd]
      exact Aside.refl s
    | some c =>
      obtain ⟨s', raised, hact, hran, -⟩ := State.act_late ih hground hadd
      rw [hact]
      exact hran.aside

/-! ### Up to the cancellation -/

variable {callbacks : List (String × Callback)} {before : List Action} {s : State}

/-- A source with these callbacks, which was not cancelled. -/
structure Waits (callbacks : List (String × Callback)) (registered : List String) (kept : String → Option String)
    (s : State) : Prop where
  callbacks : s.callbacks = callbacks
  ground : s.ground = .source ⟨false, registered⟩
  kept : ∀ name, s.kept.lookup name = kept name
  calls : s.calls = []

section Waits

variable {registered : List String} {kept : String → Option String}

theorem Waits.add (h : Waits callbacks registered kept s) (act : State → Action → State × Option Fault)
    (c name : String) :
    ∃ s', s.add act c name = (s', none) ∧
      Waits callbacks (registered ++ [c]) (fun other => if name = other then some c else kept other) s' := by
  refine ⟨{ s with ground := .source ⟨false, registered ++ [c]⟩ }.keep name c, ?_, h.callbacks, rfl, fun other => ?_,
    h.calls⟩
  · simp [State.add, h.ground, CancellationSource.onCancelled]
  · rw [State.keep, lookup_keep, h.kept]
    simp only [eq_comm]

theorem Waits.remove (h : Waits callbacks registered kept s) (hnodup : registered.Nodup) (name : String) :
    Waits callbacks ((kept name).elim registered fun c => registered.filter (· != c)) kept (s.remove name) := by
  unfold State.remove
  rw [h.kept]
  cases kept name with
  | none => exact h
  | some c =>
    rw [h.ground]
    refine ⟨h.callbacks, ?_, h.kept, h.calls⟩
    simp [CancellationSource.remove, hnodup.erase_eq_filter]

/-- What the cancellation and the check make of a source that was not cancelled yet. -/
theorem Waits.act (h : Waits callbacks registered kept s) {a : Action} (hadd : a.add = none) (hremove : a.remove = none)
    (depth : Nat) :
    ∃ s', s.act (depth + 1) a =
        (s', a.check.bind fun operation => if a.cancel then some (.cancelled operation none) else none) ∧
      s'.callbacks = callbacks ∧
      if a.cancel then s'.ground = .ended ∧ InTurn callbacks registered s'.calls.reverse else s' = s := by
  rw [State.act_source hadd hremove h.ground]
  cases a.cancel with
  | false =>
    have huncancelled (operation : Option String) : s.check operation = none := by
      simp [State.check, State.isCancelled, h.ground]
    refine ⟨s, ?_, h.callbacks, rfl⟩
    simp [huncancelled]
  | true =>
    let ended : State := { s with ground := .ended }
    obtain ⟨hcallbacks, hground, new, hcalls, hinturn⟩ :=
      State.callAll_ran (State.act_aside depth) (s := ended) rfl registered
    refine ⟨ended.callAll (State.act depth) none registered, ?_, hcallbacks.trans h.callbacks, hground, ?_⟩
    · simp only [if_true, ← State.check_ended hground]
      rfl
    · rw [hcalls, ← h.callbacks]
      simpa [ended, h.calls] using hinturn

end Waits

/-- The registration of an action and its removal, on a source that was not cancelled yet. -/
theorem Waits.requests (h : Waits callbacks (registered before) (keptAs before) s) (hnodup : (registered before).Nodup)
    {a : Action} (honce : ∀ c, a.add = some c → c ∉ registered before) (depth : Nat) :
    ∃ s', s.act (depth + 1) a = s'.act (depth + 1) { a with add := none, remove := none } ∧
      (registered (before ++ [a])).Nodup ∧
      Waits callbacks (registered (before ++ [a])) (keptAs (before ++ [a])) s' := by
  obtain ⟨s₁, hact₁, hnodup₁, hwaits₁⟩ : ∃ s₁, s.act (depth + 1) a = s₁.act (depth + 1) { a with add := none } ∧
      (registered before ++ a.add.toList).Nodup ∧
      Waits callbacks (registered before ++ a.add.toList) (keptAs (before ++ [a])) s₁ := by
    cases hadd : a.add with
    | none =>
      refine ⟨s, by rw [← hadd], by simpa using hnodup, h.callbacks, by simpa using h.ground, fun name => ?_, h.calls⟩
      rw [h.kept, keptAs_append_singleton, hadd]
      simp
    | some c =>
      obtain ⟨s₁, hs₁, hwaits⟩ := h.add (State.act depth) c a.name
      refine ⟨s₁, State.act_add hadd hs₁, ?_, hwaits.callbacks, hwaits.ground, fun name => ?_, hwaits.calls⟩
      · simpa using List.Nodup.concat (honce c hadd) hnodup
      · rw [hwaits.kept, keptAs_append_singleton, hadd]
        split <;> simp
  rw [registered_append_singleton, removes]
  cases hremove : a.remove with
  | none => exact ⟨s₁, by rw [hact₁, ← hremove], hnodup₁, hwaits₁⟩
  | some name =>
    have hwaits := hwaits₁.remove hnodup₁ name
    refine ⟨s₁.remove name, by rw [hact₁]; exact State.act_remove rfl hremove, ?_, hwaits⟩
    cases hkept : keptAs (before ++ [a]) name with
    | none => simpa [hkept] using hnodup₁
    | some c => simpa [hkept] using hnodup₁.filter _

/-! ### Runs -/

/-- A source after these actions. -/
inductive Follows (callbacks : List (String × Callback)) (before : List Action) (s : State) : Prop where
  | waits (huncancelled : cancelled before = false) (hnodup : (registered before).Nodup)
      (hwaits : Waits callbacks (registered before) (keptAs before) { s with calls := [] })
  | ended (hcancelled : cancelled before = true) (hcallbacks : s.callbacks = callbacks) (hground : s.ground = .ended)

/-- An action on a source that was not cancelled yet. -/
theorem Waits.step (h : Waits callbacks (registered before) (keptAs before) s)
    (huncancelled : cancelled before = false) (hnodup : (registered before).Nodup) {a : Action}
    (honce : ∀ c, a.add = some c → c ∉ registered before) (depth : Nat) :
    ∃ s' fault, s.act (depth + 1) a = (s', fault) ∧ Follows callbacks (before ++ [a]) s' ∧
      Signals callbacks before a ⟨fault, s'.calls.reverse, s'.view⟩ := by
  obtain ⟨s₂, hact₂, hnodup₂, hwaits₂⟩ := h.requests hnodup honce depth
  obtain ⟨s', hact, hcallbacks, hs'⟩ := hwaits₂.act (a := { a with add := none, remove := none }) rfl rfl depth
  have hcancelled : cancelled (before ++ [a]) = a.cancel := by simp [cancelled_append_singleton, huncancelled]
  have hdue : due before a = if a.cancel then registered (before ++ [a]) else [] := by simp [due, huncancelled]
  obtain ⟨hfollows, hview, hcalls⟩ : Follows callbacks (before ++ [a]) s' ∧ s'.view = .token a.cancel true ∧
      InTurn callbacks (due before a) s'.calls.reverse := by
    cases hcancel : a.cancel with
    | false =>
      obtain rfl : s' = s₂ := by simpa [hcancel] using hs'
      refine ⟨.waits (hcancelled.trans hcancel) hnodup₂ ⟨hcallbacks, hwaits₂.ground, hwaits₂.kept, rfl⟩, ?_, ?_⟩
      · simp [State.view, hwaits₂.ground]
      · simpa [hdue, hcancel, hwaits₂.calls] using InTurn.nil
    | true =>
      obtain ⟨hground, hinturn⟩ : s'.ground = .ended ∧ InTurn callbacks (registered (before ++ [a])) s'.calls.reverse := by
        simpa [hcancel] using hs'
      refine ⟨.ended (hcancelled.trans hcancel) hcallbacks hground, ?_, ?_⟩
      · simp [State.view, hground, Ground.ended]
      · simpa [hdue, hcancel] using hinturn
  refine ⟨s', _, hact₂.trans hact, hfollows, hview.trans (by rw [hcancelled]), hcalls, ?_, ?_, none, ?_, fun _ => rfl, ?_⟩
  · rw [hdue]
    split
    · exact hnodup₂
    · exact List.nodup_nil
  · rintro earlier b later c rfl hremoves hlater hadd
    exact not_mem_due hremoves hlater hadd
  · simp [hcancelled]
  · simp [huncancelled]

/-- An action on a source that is cancelled. -/
theorem State.step_ended (hcallbacks : s.callbacks = callbacks) (hground : s.ground = .ended) (hcalls : s.calls = [])
    (hcancelled : cancelled before = true) (a : Action) (depth : Nat) :
    ∃ s' fault, s.act (depth + 1) a = (s', fault) ∧ Follows callbacks (before ++ [a]) s' ∧
      Signals callbacks before a ⟨fault, s'.calls.reverse, s'.view⟩ := by
  have hcancelled' : cancelled (before ++ [a]) = true := by simp [cancelled_append_singleton, hcancelled]
  have hdue : due before a = a.add.toList := by simp [due, hcancelled]
  obtain ⟨s', raised, hact, hran, hraised⟩ : ∃ s' raised,
      s.act (depth + 1) a = (s', raised.or (a.check.bind fun operation => some (.cancelled operation none))) ∧
      Ran a.add.toList s s' ∧ (a.add = none → raised = none) ∧ ∀ c, a.add = some c → Raises callbacks c raised := by
    cases hadd : a.add with
    | none => exact ⟨s, none, State.act_ended hground hadd, ⟨rfl, rfl, [], by simp, .nil⟩, fun _ => rfl, by simp⟩
    | some c =>
      obtain ⟨s', raised, hact, hran, hraises⟩ := State.act_late (State.act_aside depth) hground hadd
      refine ⟨s', raised, hact, hran, by simp, fun c' hc' => ?_⟩
      obtain rfl : c = c' := by simpa using hc'
      exact hcallbacks ▸ hraises
  obtain ⟨new, hnew, hinturn⟩ := hran.calls
  refine ⟨s', _, hact, .ended hcancelled' (hran.callbacks.trans hcallbacks) (hran.ground.trans hground),
    ?_, ?_, ?_, ?_, raised, ?_, ?_, ?_⟩
  · simp [State.view, hran.ground, hground, Ground.ended, hcancelled']
  · rw [hdue, hnew, ← hcallbacks]
    simpa [hcalls] using hinturn
  · rw [hdue]
    cases a.add <;> simp
  · rintro earlier b later c rfl hremoves hlater hadd
    exact not_mem_due hremoves hlater hadd
  · simp [hcancelled']
  · simpa [hcancelled] using hraised.1
  · exact fun _ => hraised.2

theorem Follows.step (h : Follows callbacks before s) {a : Action}
    (honce : cancelled before = false → ∀ c, a.add = some c → c ∉ registered before) :
    ∃ s' fault, { s with calls := [] }.act nestingLimit a = (s', fault) ∧ Follows callbacks (before ++ [a]) s' ∧
      Signals callbacks before a ⟨fault, s'.calls.reverse, s'.view⟩ := by
  cases h with
  | waits huncancelled hnodup hwaits => exact hwaits.step huncancelled hnodup (honce huncancelled) _
  | ended hcancelled hcallbacks hground =>
    exact State.step_ended (s := { s with calls := [] }) hcallbacks hground rfl hcancelled a _

theorem Follows.run {actions : List Action} (h : Follows callbacks before s)
    (honce : ∀ k a c, actions[k]? = some a → cancelled (before ++ actions.take k) = false → a.add = some c →
      c ∉ registered (before ++ actions.take k)) :
    (s.run actions).length = actions.length ∧ ∀ k a, actions[k]? = some a →
      ∃ answer, (s.run actions)[k]? = some answer ∧ Signals callbacks (before ++ actions.take k) a answer := by
  induction actions generalizing before s with
  | nil => exact ⟨rfl, by simp⟩
  | cons a rest ih =>
    obtain ⟨s', fault, hact, hfollows, hsignals⟩ := h.step fun huncancelled c hadd => by
      simpa using honce 0 a c rfl (by simpa using huncancelled) hadd
    obtain ⟨hlength, hrest⟩ := ih hfollows fun k a' c hk huncancelled hadd => by
      simpa using honce (k + 1) a' c hk (by simpa using huncancelled) hadd
    simp only [State.run, hact]
    refine ⟨by simp [hlength], fun k a' hk => ?_⟩
    cases k with
    | zero =>
      obtain rfl : a = a' := by simpa using hk
      exact ⟨_, rfl, by simpa using hsignals⟩
    | succ k =>
      obtain ⟨answer, hanswer, hsignals'⟩ := hrest k a' hk
      exact ⟨answer, hanswer, by simpa using hsignals'⟩

/-! A token without a source. -/

theorem State.act_noSource (hground : s.ground = .noSource) (depth : Nat) (a : Action) :
    ∃ kept, s.act (depth + 1) a = ({ s with kept := kept }, none) := by
  have hrest {s : State} {a : Action} (hground : s.ground = .noSource) (hadd : a.add = none) :
      s.act (depth + 1) a = (s, none) := by
    have hremove (name : String) : s.remove name = s := by
      unfold State.remove
      rw [hground]
      cases s.kept.lookup name <;> rfl
    have hunchecked (operation : Option String) : s.check operation = none := by
      simp [State.check, State.isCancelled, hground]
    refine State.act_unremoved hadd hremove ?_
    cases a.check <;> simp [State.act, hadd, hground, hunchecked]
  cases hadd : a.add with
  | none => exact ⟨s.kept, hrest hground hadd⟩
  | some c =>
    have hadded : s.add (State.act depth) c a.name = (s.keep a.name c, none) := by
      rw [State.add, hground]
    exact ⟨_, (State.act_add hadd hadded).trans (hrest hground rfl)⟩

theorem State.run_noSource (hground : s.ground = .noSource) (actions : List Action) :
    s.run actions = actions.map fun _ => ⟨none, [], .token false false⟩ := by
  induction actions generalizing s with
  | nil => rfl
  | cons a rest ih =>
    obtain ⟨kept, hact⟩ : ∃ kept, State.act nestingLimit { s with calls := [] } a =
        (⟨s.ground, s.callbacks, kept, []⟩, none) := State.act_noSource (s := { s with calls := [] }) hground _ a
    rw [State.run, hact]
    simp only [List.map_cons]
    rw [ih (s := ⟨s.ground, s.callbacks, kept, []⟩) hground]
    simp [State.view, hground]

/-- Whatever is registered, removed and cancelled, a source answers every action as its requests so far decide, unless a
callback is registered while it stands registered.  The first cancellation runs exactly those that stand, once each and in
order; a later registration runs its callback at once; nothing else runs.  A token without a source never does anything. -/
theorem run_signals (callbacks : List (String × Callback)) (actions : List Action)
    (once : ∀ k a c, actions[k]? = some a → cancelled (actions.take k) = false → a.add = some c →
      c ∉ registered (actions.take k)) :
    (State.run ⟨.source {}, callbacks, [], []⟩ actions).length = actions.length ∧
    (∀ k a, actions[k]? = some a → ∃ answer, (State.run ⟨.source {}, callbacks, [], []⟩ actions)[k]? = some answer ∧
      Signals callbacks (actions.take k) a answer) ∧
    State.run ⟨.noSource, callbacks, [], []⟩ actions = actions.map fun _ => ⟨none, [], .token false false⟩ := by
  have hstart : Follows callbacks [] ⟨.source {}, callbacks, [], []⟩ :=
    .waits rfl List.nodup_nil ⟨rfl, rfl, fun _ => rfl, rfl⟩
  obtain ⟨hlength, hsignals⟩ := hstart.run once
  exact ⟨hlength, hsignals, State.run_noSource rfl actions⟩

/-- Three callbacks wait, of which one fails and one is removed twice; functions are called after the cancellation, and a
failing callback comes too late. -/
theorem run_signals_drain :
    let callbacks := [("a", Callback.fails ⟨.plain "no", nofun⟩), ("b", .silent), ("c", .silent)]
    let actions : List Action := [{ add := some "a", name := "1" }, { add := some "b", name := "2" },
      { add := some "c", name := "3" }, { remove := some "2" }, { remove := some "2", check := some none },
      { cancel := true }, { cancel := true }, { remove := some "1" }, { add := some "a", name := "4" },
      { check := some none }]
    let answers := State.run ⟨.source {}, callbacks, [], []⟩ actions
    (∀ k a, actions[k]? = some a → ∃ answer, answers[k]? = some answer ∧ Signals callbacks (actions.take k) a answer) ∧
      answers.map (·.calls.map (·.callback)) = [[], [], [], [], [], ["a", "c"], [], [], ["a"], []] ∧
      answers.map (·.fault) = [none, none, none, none, none, none, none, none,
        some (.plain "no"), some (.cancelled none none)] := by
  intro callbacks actions answers
  have honce : ∀ k < actions.length, ∀ a ∈ actions[k]?, cancelled (actions.take k) = false → ∀ c ∈ a.add,
      c ∉ registered (actions.take k) := by decide +kernel
  refine ⟨(run_signals callbacks actions fun k a c hk huncancelled hadd => ?_).2.1, by decide +kernel, rfl⟩
  exact honce k (List.getElem?_eq_some_iff.mp hk).1 a hk huncancelled c hadd

end Orchestra.Scenario.Emitter
