import Mathlib.Data.List.Basic
import Orchestra.Scenario.Emitter

/-!
# Orchestra.Proofs.Observers.Subscriptions — what becomes of each subscription to an emitter

An emitter keeps listeners, not subscriptions, and a function that unsubscribes strikes the first equal listener off.  A roll
(`Roll`) keeps every subscription instead, and marks the very one whose function is called.  The two deliver the same to
every listener (`run_delivers`), up to the listeners that are contested: those with a function called while another of their
subscriptions stood first (`run_strikes_another`).
-/

namespace Orchestra.Scenario.Emitter

/-! ### The roll of subscriptions -/

/-- One subscription of a listener, and whether its own function was called. -/
structure Subscription where
  listener : String
  withdrawn : Bool := false
  deriving Repr

namespace Subscription

def withdraw (s : Subscription) : Subscription := { s with withdrawn := true }

/-- Whether a subscription of that listener still stands. -/
def Stands (l : String) (s : Subscription) : Bool := !s.withdrawn && s.listener == l

/-- The listeners of the subscriptions that still stand, in the order in which they were made. -/
def live (subscriptions : List Subscription) : List String :=
  (subscriptions.filter fun s => !s.withdrawn).map (·.listener)

/-- The listener of the given subscription, where another of its subscriptions stands before all others. -/
def contender (subscriptions : List Subscription) (k : Nat) : Option String := do
  let s ← subscriptions[k]?
  let first ← subscriptions.findIdx? (Stands s.listener)
  if first = k then none else some s.listener

end Subscription

/-- All subscriptions that were ever made, and which of them each kept function withdraws. -/
structure Roll where
  subscriptions : List Subscription := []
  handles : List (String × Nat) := []
  /-- The listeners with a function that was called while another of their subscriptions stood first. -/
  contested : List String := []
  /-- The calls so far, the last first. -/
  calls : List Call := []
  deriving Repr

namespace Roll

def live (r : Roll) : List String := Subscription.live r.subscriptions

def subscribe (r : Roll) (listener name : String) : Roll :=
  { r with
    subscriptions := r.subscriptions ++ [⟨listener, false⟩]
    handles := (name, r.subscriptions.length) :: r.handles.filter (·.1 != name) }

/-- Calls the function kept under that name: it withdraws its own subscription, however often it is called. -/
def withdraw (r : Roll) (name : String) : Roll :=
  match r.handles.lookup name with
  | none => r
  | some k =>
    { r with
      subscriptions := r.subscriptions.modify k Subscription.withdraw
      contested := (Subscription.contender r.subscriptions k).toList ++ r.contested }

section Callbacks

variable (callbacks : List (String × Callback))

/-- Calls a listener, given how it acts. -/
def call (act : Roll → Action → Roll) (event : Value) (r : Roll) (listener : String) : Roll :=
  let r := { r with calls := ⟨listener, some event⟩ :: r.calls }
  match callbacks.lookup listener with
  | some (.acts a) => act r a
  | _ => r

/-- Delivers an event once for each subscription that stands when it is fired. -/
def fire (act : Roll → Action → Roll) (event : Value) (r : Roll) : Roll :=
  r.live.foldl (call callbacks act event) r

def act : Nat → Roll → Action → Roll
  | 0, r, _ => r
  | depth + 1, r, a =>
    let r := match a.add with
      | none => r
      | some listener => r.subscribe listener a.name
    let r := match a.remove with
      | none => r
      | some name => r.withdraw name
    match a.fire with
    | none => r
    | some event => r.fire callbacks (act depth) event

/-- The roll after one more action, with the calls that it made. -/
def step (r : Roll) (a : Action) : Roll := { r with calls := [] }.act callbacks nestingLimit a

def after (r : Roll) (actions : List Action) : Roll := actions.foldl (step callbacks) r

/-- The calls that each action makes. -/
def run (r : Roll) : List Action → List (List Call)
  | [] => []
  | a :: rest => (r.step callbacks a).calls.reverse :: (r.step callbacks a).run rest

end Callbacks

end Roll

/-! ### Striking a subscription off -/

namespace Subscription

variable {subs : List Subscription} {l : String} {k : Nat}

@[simp] theorem live_nil : live [] = [] := rfl

@[simp] theorem live_append (xs ys : List Subscription) : live (xs ++ ys) = live xs ++ live ys := by simp [live]

theorem live_cons (s : Subscription) (subs : List Subscription) :
    live (s :: subs) = if s.withdrawn then live subs else s.listener :: live subs := by
  cases hs : s.withdrawn <;> simp [live, hs]

@[simp] theorem live_withdraw_cons (s : Subscription) (subs : List Subscription) :
    live (s.withdraw :: subs) = live subs := by simp [live_cons, withdraw]

theorem not_mem_live (h : subs.findIdx? (Stands l) = none) : l ∉ live subs := by
  rw [List.findIdx?_eq_none_iff] at h
  simp only [live, List.mem_map, List.mem_filter, not_exists, not_and]
  rintro s ⟨hs, hlive⟩ rfl
  simpa [Stands, hlive] using h s hs

/-- Withdrawing the first subscription of a listener that stands is what an emitter does. -/
theorem live_modify_first (h : subs.findIdx? (Stands l) = some k) :
    live (subs.modify k withdraw) = (live subs).erase l := by
  induction subs generalizing k with
  | nil => simp at h
  | cons s subs ih =>
    rw [List.findIdx?_cons] at h
    cases hs : s.Stands l with
    | true =>
      obtain rfl : 0 = k := by simpa [hs] using h
      obtain ⟨hlive, hl⟩ : s.withdrawn = false ∧ s.listener = l := by simpa [Stands] using hs
      simp [live_cons s, hlive, hl]
    | false =>
      obtain ⟨i, hi, rfl⟩ : ∃ i, subs.findIdx? (Stands l) = some i ∧ i + 1 = k := by simpa [hs] using h
      rw [List.modify_succ_cons, live_cons, live_cons, ih hi]
      cases hlive : s.withdrawn with
      | true => rfl
      | false =>
        have hne : s.listener ≠ l := by simpa [Stands, hlive] using hs
        simp [hne]

/-- Withdrawing a subscription says nothing about other listeners. -/
theorem filter_live_modify {p : String → Bool} (hk : ∀ s, subs[k]? = some s → p s.listener = false ∨ s.withdrawn) :
    (live (subs.modify k withdraw)).filter p = (live subs).filter p := by
  induction subs generalizing k with
  | nil => simp
  | cons s subs ih =>
    cases k with
    | zero =>
      have hs := hk s rfl
      rw [List.modify_zero_cons, live_withdraw_cons, live_cons]
      cases hlive : s.withdrawn <;> simp_all
    | succ k =>
      have hrest := ih (k := k) fun s' hs' => hk s' (by simpa using hs')
      rw [List.modify_succ_cons, live_cons, live_cons]
      cases s.withdrawn with
      | true => exact hrest
      | false =>
        simp only [Bool.false_eq_true, if_false, List.filter_cons, hrest]

/-- Where no subscription of the listener comes first instead, withdrawing its own is what an emitter does. -/
theorem live_modify_own {s : Subscription} (hs : subs[k]? = some s) (hown : contender subs k = none) :
    live (subs.modify k withdraw) = (live subs).erase s.listener := by
  cases hfirst : subs.findIdx? (Stands s.listener) with
  | none =>
    have hstands := (List.findIdx?_eq_none_iff.mp hfirst) s (List.mem_of_getElem? hs)
    have hwithdrawn : s.withdrawn = true := by simpa [Stands] using hstands
    have hsame : (live (subs.modify k withdraw)).filter (fun _ => true) = (live subs).filter fun _ => true :=
      filter_live_modify fun s' hs' => by
        rw [hs] at hs'
        exact .inr (Option.some.inj hs' ▸ hwithdrawn)
    rw [List.erase_of_not_mem (not_mem_live hfirst)]
    simpa using hsame
  | some first =>
    have hk : first = k := by
      by_contra hne
      simp [contender, hs, hfirst, hne] at hown
    exact live_modify_first (hk ▸ hfirst)

end Subscription

/-! ### What a listener that acts may do to the roll -/

namespace Roll

variable {callbacks : List (String × Callback)} {r : Roll}

/-- Only the listener of the subscription can come to be contested. -/
theorem withdraw_contested (name : String) : r.contested ⊆ (r.withdraw name).contested := by
  unfold withdraw
  split
  · exact List.Subset.refl _
  · exact List.subset_append_right _ _

theorem withdraw_calls (name : String) : (r.withdraw name).calls = r.calls := by
  unfold withdraw
  split <;> rfl

/-- What a fired event and what an action add to a roll: calls, and listeners that are contested. -/
structure Extends (r r' : Roll) : Prop where
  contested : r.contested ⊆ r'.contested
  calls : ∃ new, r'.calls = new ++ r.calls

theorem Extends.refl (r : Roll) : r.Extends r := ⟨List.Subset.refl _, [], rfl⟩

theorem Extends.trans {r₁ r₂ r₃ : Roll} (h₁ : r₁.Extends r₂) (h₂ : r₂.Extends r₃) : r₁.Extends r₃ := by
  obtain ⟨new₁, hcalls₁⟩ := h₁.calls
  obtain ⟨new₂, hcalls₂⟩ := h₂.calls
  exact ⟨List.Subset.trans h₁.contested h₂.contested, new₂ ++ new₁, by rw [hcalls₂, hcalls₁, List.append_assoc]⟩

theorem call_extends {act : Roll → Action → Roll} (hact : ∀ r a, Extends r (act r a)) (event : Value) (r : Roll)
    (listener : String) : r.Extends (r.call callbacks act event listener) := by
  have hlogged : r.Extends { r with calls := ⟨listener, some event⟩ :: r.calls } := ⟨List.Subset.refl _, [_], rfl⟩
  unfold call
  split
  · exact hlogged.trans (hact _ _)
  · exact hlogged

theorem foldl_call_extends {act : Roll → Action → Roll} (hact : ∀ r a, Extends r (act r a)) (event : Value)
    (names : List String) (r : Roll) : r.Extends (names.foldl (call callbacks act event) r) := by
  induction names generalizing r with
  | nil => exact Extends.refl r
  | cons name names ih => exact (call_extends hact event r name).trans (ih _)

theorem act_extends (depth : Nat) (r : Roll) (a : Action) : r.Extends (r.act callbacks depth a) := by
  induction depth generalizing r a with
  | zero => exact Extends.refl r
  | succ depth ih =>
    obtain ⟨add, name, remove, fire, -, -⟩ := a
    have hadded : r.Extends (match add with | none => r | some listener => r.subscribe listener name) := by
      cases add <;> exact ⟨List.Subset.refl _, [], rfl⟩
    refine hadded.trans ?_
    simp only [act]
    generalize (match add with | none => r | some listener => r.subscribe listener name) = r
    have hremoved : r.Extends (match remove with | none => r | some name => r.withdraw name) := by
      cases remove with
      | none => exact Extends.refl r
      | some name => exact ⟨withdraw_contested name, [], by simp [withdraw_calls]⟩
    refine hremoved.trans ?_
    cases fire with
    | none => exact Extends.refl _
    | some event => exact foldl_call_extends ih event _ _

theorem after_contested (r : Roll) (actions : List Action) : r.contested ⊆ (r.after callbacks actions).contested := by
  induction actions generalizing r with
  | nil => exact List.Subset.refl _
  | cons a rest ih => exact List.Subset.trans (act_extends nestingLimit { r with calls := [] } a).contested (ih _)

variable (callbacks) in
/-- One delivery: the call of the listener, and then whatever comes of how it acts. -/
theorem call_calls {act : Roll → Action → Roll} (hact : ∀ r a, Extends r (act r a)) (event : Value) (r : Roll)
    (listener : String) :
    ∃ aside, ((∀ a, callbacks.lookup listener ≠ some (.acts a)) → aside = []) ∧
      (r.call callbacks act event listener).calls.reverse = r.calls.reverse ++ ⟨listener, some event⟩ :: aside := by
  unfold call
  split
  · rename_i a hacts
    obtain ⟨new, hnew⟩ := (hact { r with calls := ⟨listener, some event⟩ :: r.calls } a).calls
    exact ⟨new.reverse, fun hplain => absurd hacts (hplain a), by simp [hnew]⟩
  · exact ⟨[], fun _ => rfl, by simp⟩

/-- An event is delivered once for each name, in order. -/
theorem foldl_call_calls {act : Roll → Action → Roll} (hact : ∀ r a, Extends r (act r a)) (event : Value)
    (names : List String) (r : Roll) :
    ∃ asides : List (List Call), asides.length = names.length ∧
      (∀ delivery ∈ names.zip asides, (∀ a, callbacks.lookup delivery.1 ≠ some (.acts a)) → delivery.2 = []) ∧
      (names.foldl (call callbacks act event) r).calls.reverse = r.calls.reverse ++
        (names.zip asides).flatMap fun delivery => ⟨delivery.1, some event⟩ :: delivery.2 := by
  induction names generalizing r with
  | nil => exact ⟨[], rfl, by simp, by simp⟩
  | cons name names ih =>
    obtain ⟨aside, hplain, hcall⟩ := call_calls callbacks hact event r name
    obtain ⟨asides, hlength, hplains, hcalls⟩ := ih (r.call callbacks act event name)
    refine ⟨aside :: asides, by simp [hlength], fun delivery hd => ?_, ?_⟩
    · rcases List.mem_cons.mp hd with rfl | hd
      · exact hplain
      · exact hplains delivery hd
    · rw [List.foldl_cons, hcalls, hcall]
      simp

end Roll

/-! ### The emitter keeps to the roll -/

variable {p : String → Bool} {callbacks : List (String × Callback)} {s : State} {r : Roll}

/-- The emitter and the roll agree about the listeners with the given property. -/
structure Matches (p : String → Bool) (callbacks : List (String × Callback)) (s : State) (r : Roll) : Prop where
  callbacks : s.callbacks = callbacks
  listeners : ∃ e, s.ground = .emitter e ∧ e.listeners.filter p = r.live.filter p
  kept : ∀ name, s.kept.lookup name = (r.handles.lookup name).bind fun k => r.subscriptions[k]?.map (·.listener)
  handles : ∀ h ∈ r.handles, h.2 < r.subscriptions.length
  calls : s.calls.filter (p ·.callback) = r.calls.filter (p ·.callback)

theorem lookup_keep {β : Type} (name other : String) (x : β) (kept : List (String × β)) :
    ((name, x) :: kept.filter (·.1 != name)).lookup other = if other = name then some x else kept.lookup other := by
  rw [List.lookup_cons]
  by_cases hname : other = name
  · simp [hname]
  · simp only [beq_eq_false_iff_ne.mpr hname, if_neg hname]
    induction kept with
    | nil => rfl
    | cons k kept ih =>
      by_cases hk : k.1 = name
      · have hother : (other == k.1) = false := by simp [hk, hname]
        simp only [List.filter_cons, hk, bne_self_eq_false, Bool.false_eq_true, if_false, ih]
        rw [List.lookup_cons, hother]
      · rw [List.filter_cons_of_pos (by simpa using hk), List.lookup_cons, List.lookup_cons, ih]

theorem lookup_mem {β : Type} {name : String} {x : β} {kept : List (String × β)} (h : kept.lookup name = some x) :
    (name, x) ∈ kept := by
  induction kept with
  | nil => simp at h
  | cons k kept ih =>
    rw [List.lookup_cons] at h
    cases hname : name == k.1 with
    | true =>
      obtain rfl : k.2 = x := by simpa [hname] using h
      rw [beq_iff_eq.mp hname]
      exact List.mem_cons_self
    | false => exact List.mem_cons_of_mem _ (ih (by simpa [hname] using h))

theorem Matches.subscribe (h : Matches p callbacks s r) (act : State → Action → State × Option Fault)
    (listener name : String) :
    (s.add act listener name).2 = none ∧
      Matches p callbacks (s.add act listener name).1 (r.subscribe listener name) := by
  obtain ⟨e, hground, hlisteners⟩ := h.listeners
  rw [State.add, hground]
  refine ⟨rfl, h.callbacks, ⟨_, rfl, ?_⟩, fun other => ?_, fun handle hhandle => ?_, h.calls⟩
  · simp [Emitter.subscribe, Roll.live, Roll.subscribe, hlisteners, Subscription.live_cons]
  · simp only [State.keep, Roll.subscribe, lookup_keep, h.kept]
    split
    · simp
    · cases hother : r.handles.lookup other with
      | none => rfl
      | some k =>
        have hk := h.handles _ (lookup_mem hother)
        simp [List.getElem?_append_left hk]
  · rw [Roll.subscribe, List.length_append]
    rcases List.mem_cons.mp hhandle with rfl | hhandle
    · simp
    · exact Nat.lt_succ_of_lt (h.handles _ (List.mem_filter.mp hhandle).1)

/-- Striking the first equal listener off is withdrawing the subscription itself, unless the listener is contested. -/
theorem Matches.withdraw (h : Matches p callbacks s r) (name : String)
    (hp : ∀ l ∈ (r.withdraw name).contested, p l = false) :
    Matches p callbacks (s.remove name) (r.withdraw name) := by
  obtain ⟨e, hground, hlisteners⟩ := h.listeners
  have hkept := h.kept name
  unfold Roll.withdraw at hp ⊢
  unfold State.remove
  cases hhandle : r.handles.lookup name with
  | none =>
    rw [hhandle] at hkept
    rw [hkept]
    exact h
  | some k =>
    have hk := h.handles _ (lookup_mem hhandle)
    have hget : r.subscriptions[k]? = some r.subscriptions[k] := List.getElem?_eq_getElem hk
    rw [hhandle, Option.bind_some, hget, Option.map_some] at hkept
    rw [hhandle] at hp
    simp only [hkept, hground]
    refine ⟨h.callbacks, ⟨_, rfl, ?_⟩, fun other => ?_, fun handle hmem => ?_, h.calls⟩
    · change (e.listeners.erase _).filter p = (Subscription.live (r.subscriptions.modify k _)).filter p
      rw [← List.erase_filter, hlisteners]
      cases hown : Subscription.contender r.subscriptions k with
      | none => rw [Subscription.live_modify_own hget hown, ← List.erase_filter, Roll.live]
      | some l =>
        have hl : l = r.subscriptions[k].listener := by
          cases hfirst : r.subscriptions.findIdx? (Subscription.Stands r.subscriptions[k].listener) with
          | none => simp [Subscription.contender, hget, hfirst] at hown
          | some first =>
            have hown' := hown
            simp only [Subscription.contender, hget, hfirst, Option.bind_eq_bind, Option.bind_some] at hown'
            split at hown'
            · simp at hown'
            · exact (Option.some.inj hown').symm
        have hpl : p r.subscriptions[k].listener = false := hl ▸ hp l (by simp [hown])
        rw [Subscription.filter_live_modify fun s hs => .inl (by rw [hget] at hs; exact Option.some.inj hs ▸ hpl)]
        exact List.erase_of_not_mem fun hmem => by simp [hpl] at hmem
    · rw [h.kept]
      congr 1
      funext i
      rw [List.getElem?_modify]
      cases r.subscriptions[i]? with
      | none => rfl
      | some s => by_cases hi : k = i <;> simp [hi, Subscription.withdraw]
    · simpa using h.handles handle hmem

/-- A listener that does not act only leaves its call behind. -/
theorem State.call_plain {act : State → Action → State × Option Fault} {name : String}
    (hplain : ∀ a, s.callbacks.lookup name ≠ some (.acts a)) (event : Option Value) :
    (s.call act name event).1 = { s with calls := ⟨name, event⟩ :: s.calls } := by
  cases hlookup : s.callbacks.lookup name with
  | none => simp only [State.call, hlookup]
  | some callback =>
    cases callback with
    | acts a => exact absurd hlookup (hplain a)
    | silent | fails => simp only [State.call, hlookup]

theorem Roll.call_plain {act : Roll → Action → Roll} {name : String}
    (hplain : ∀ a, callbacks.lookup name ≠ some (.acts a)) (event : Value) :
    r.call callbacks act event name = { r with calls := ⟨name, some event⟩ :: r.calls } := by
  unfold Roll.call
  split
  · rename_i a hacts
    exact absurd hacts (hplain a)
  · rfl

section Acting

variable {act : State → Action → State × Option Fault} {act' : Roll → Action → Roll}

theorem Matches.logged (h : Matches p callbacks s r) (c : Call) :
    Matches p callbacks { s with calls := c :: s.calls } { r with calls := c :: r.calls } :=
  ⟨h.callbacks, h.listeners, h.kept, h.handles, by simp only [List.filter_cons, h.calls]⟩

variable (hext : ∀ r a, Roll.Extends r (act' r a))
  (hact : ∀ {s r} (a : Action), Matches p callbacks s r → (∀ l ∈ (act' r a).contested, p l = false) →
    Matches p callbacks (act s a).1 (act' r a))
  (hplain : ∀ l, p l = false → ∀ a, callbacks.lookup l ≠ some (.acts a))

include hact in
theorem Matches.call (h : Matches p callbacks s r) (event : Value) (name : String)
    (hp : ∀ l ∈ (r.call callbacks act' event name).contested, p l = false) :
    Matches p callbacks (s.call act name (some event)).1 (r.call callbacks act' event name) := by
  cases hlookup : callbacks.lookup name with
  | none =>
    rw [State.call_plain (by simp [h.callbacks, hlookup]), Roll.call_plain (by simp [hlookup])]
    exact h.logged _
  | some callback =>
    cases callback with
    | acts a =>
      simp only [Roll.call, hlookup] at hp ⊢
      have hacts := hact a (h.logged ⟨name, some event⟩) hp
      simpa only [State.call, h.callbacks, hlookup] using hacts
    | silent | fails =>
      rw [State.call_plain (by simp [h.callbacks, hlookup]), Roll.call_plain (by simp [hlookup])]
      exact h.logged _

include hplain in
/-- Calls of listeners without the property do not show on the emitter. -/
theorem Matches.call_state (h : Matches p callbacks s r) (event : Value) {name : String} (hname : p name = false) :
    Matches p callbacks (s.call act name (some event)).1 r := by
  rw [State.call_plain (by rw [h.callbacks]; exact hplain name hname)]
  exact ⟨h.callbacks, h.listeners, h.kept, h.handles, by simp [hname, h.calls]⟩

include hplain in
/-- Calls of listeners without the property do not show on the roll. -/
theorem Matches.foldl_call_roll (h : Matches p callbacks s r) (event : Value) {names : List String}
    (hnames : ∀ name ∈ names, p name = false) :
    Matches p callbacks s (names.foldl (Roll.call callbacks act' event) r) := by
  induction names generalizing r with
  | nil => exact h
  | cons name names ih =>
    have hname := hnames name List.mem_cons_self
    refine ih ?_ fun n hn => hnames n (List.mem_cons_of_mem _ hn)
    rw [Roll.call_plain (hplain name hname)]
    exact ⟨h.callbacks, h.listeners, h.kept, h.handles, by simp [hname, h.calls]⟩

include hext hact hplain in
/-- The induction is on who listens; the roll names the same listeners with the property, in the same order. -/
theorem Matches.callAll (h : Matches p callbacks s r) (event : Value) (names : List String) {names' : List String}
    (hsame : names.filter p = names'.filter p)
    (hp : ∀ l ∈ (names'.foldl (Roll.call callbacks act' event) r).contested, p l = false) :
    Matches p callbacks (s.callAll act (some event) names) (names'.foldl (Roll.call callbacks act' event) r) := by
  induction names generalizing s r names' with
  | nil =>
    refine h.foldl_call_roll hplain event fun name hname => ?_
    simpa using List.filter_eq_nil_iff.mp hsame.symm name hname
  | cons name names ih =>
    change Matches p callbacks (State.callAll act (some event) names (s.call act name (some event)).1) _
    cases hname : p name with
    | false =>
      rw [List.filter_cons_of_neg (by simp [hname])] at hsame
      exact ih (h.call_state hplain event hname) hsame hp
    | true =>
      rw [List.filter_cons_of_pos hname] at hsame
      obtain ⟨front, back, rfl, hfront, -, hback⟩ := List.filter_eq_cons_iff.mp hsame.symm
      have hskipped : Matches p callbacks s (front.foldl (Roll.call callbacks act' event) r) :=
        h.foldl_call_roll hplain event fun l hl => by simpa using hfront l hl
      rw [List.foldl_append, List.foldl_cons] at hp ⊢
      refine ih (hskipped.call hact event name fun l hl => hp l ?_) hback.symm hp
      exact (Roll.foldl_call_extends hext event back _).contested hl

end Acting

/-! An action is its parts, one after the other. -/

theorem State.act_add {depth : Nat} {a : Action} {s' : State} {listener : String} (ha : a.add = some listener)
    (hadd : s.add (State.act depth) listener a.name = (s', none)) :
    s.act (depth + 1) a = s'.act (depth + 1) { a with add := none } := by
  simp only [State.act, ha, hadd]

theorem State.act_remove {depth : Nat} {a : Action} {name : String} (hadd : a.add = none)
    (hremove : a.remove = some name) :
    s.act (depth + 1) a = (s.remove name).act (depth + 1) { a with remove := none } := by
  simp only [State.act, hadd, hremove]

/-- What cancels or checks a source has no effect on an emitter. -/
theorem State.act_rest {depth : Nat} {a : Action} {s' : State} {e e' : Orchestra.Emitter String} (hadd : a.add = none)
    (hremove : a.remove = none) (hground : s.ground = .emitter e)
    (hfire : (a.fire.elim s fun event => s.callAll (State.act depth) (some event) e.listeners) = s')
    (hground' : s'.ground = .emitter e') : s.act (depth + 1) a = (s', none) := by
  have hchecked (operation : Option String) : s'.check operation = none := by
    simp only [State.check, State.isCancelled, hground', Bool.false_eq_true, if_false]
  cases hf : a.fire <;> rw [hf] at hfire <;> subst hfire <;> cases hcheck : a.check <;>
    simp_all [State.act]

section Below

/-! Given that the emitter keeps to the roll at a smaller depth. -/

variable {depth : Nat} {a : Action} (hplain : ∀ l, p l = false → ∀ a, callbacks.lookup l ≠ some (.acts a))
  (hbelow : ∀ {s r} (a : Action), Matches p callbacks s r → (∀ l ∈ (r.act callbacks depth a).contested, p l = false) →
    Matches p callbacks (s.act depth a).1 (r.act callbacks depth a))

include hplain hbelow

theorem Matches.act_rest (h : Matches p callbacks s r) (hadd : a.add = none) (hremove : a.remove = none)
    (hp : ∀ l ∈ (r.act callbacks (depth + 1) a).contested, p l = false) :
    Matches p callbacks (s.act (depth + 1) a).1 (r.act callbacks (depth + 1) a) ∧ (s.act (depth + 1) a).2 = none := by
  obtain ⟨e, hground, hlisteners⟩ := h.listeners
  simp only [Roll.act, hadd, hremove] at hp ⊢
  cases hfire : a.fire with
  | none =>
    have hact : s.act (depth + 1) a = (s, none) :=
      State.act_rest hadd hremove hground (by rw [hfire]; rfl) hground
    rw [hact]
    exact ⟨h, rfl⟩
  | some event =>
    rw [hfire] at hp
    have hfired := h.callAll (Roll.act_extends depth) hbelow hplain event e.listeners hlisteners hp
    obtain ⟨e', hground', -⟩ := hfired.listeners
    have hact : s.act (depth + 1) a = (s.callAll (State.act depth) (some event) e.listeners, none) :=
      State.act_rest hadd hremove hground (by rw [hfire]; rfl) hground'
    rw [hact]
    exact ⟨hfired, rfl⟩

theorem Matches.act_remove (h : Matches p callbacks s r) (hadd : a.add = none)
    (hp : ∀ l ∈ (r.act callbacks (depth + 1) a).contested, p l = false) :
    Matches p callbacks (s.act (depth + 1) a).1 (r.act callbacks (depth + 1) a) ∧ (s.act (depth + 1) a).2 = none := by
  cases hremove : a.remove with
  | none => exact h.act_rest hplain hbelow hadd hremove hp
  | some name =>
    have hroll : r.act callbacks (depth + 1) a =
        (r.withdraw name).act callbacks (depth + 1) { a with remove := none } := by
      simp only [Roll.act, hadd, hremove]
    rw [State.act_remove hadd hremove, hroll]
    rw [hroll] at hp
    have hwithdrawn := h.withdraw name fun l hl => hp l ((Roll.act_extends _ _ _).contested hl)
    exact hwithdrawn.act_rest hplain hbelow hadd rfl hp

theorem Matches.act_succ (h : Matches p callbacks s r)
    (hp : ∀ l ∈ (r.act callbacks (depth + 1) a).contested, p l = false) :
    Matches p callbacks (s.act (depth + 1) a).1 (r.act callbacks (depth + 1) a) ∧ (s.act (depth + 1) a).2 = none := by
  cases hadd : a.add with
  | none => exact h.act_remove hplain hbelow hadd hp
  | some listener =>
    obtain ⟨hnone, hadded⟩ := h.subscribe (State.act depth) listener a.name
    have hroll : r.act callbacks (depth + 1) a =
        (r.subscribe listener a.name).act callbacks (depth + 1) { a with add := none } := by
      simp only [Roll.act, hadd]
    rw [State.act_add hadd (Prod.ext rfl hnone), hroll]
    rw [hroll] at hp
    exact hadded.act_remove hplain hbelow rfl hp

end Below

/-- One action, with everything that listeners do when it fires; the induction is on how deeply they may nest. -/
theorem Matches.act (hplain : ∀ l, p l = false → ∀ a, callbacks.lookup l ≠ some (.acts a)) {depth : Nat} (a : Action)
    (h : Matches p callbacks s r) (hp : ∀ l ∈ (r.act callbacks depth a).contested, p l = false) :
    Matches p callbacks (s.act depth a).1 (r.act callbacks depth a) := by
  induction depth generalizing s r a with
  | zero => exact h
  | succ depth ih => exact (h.act_succ hplain ih hp).1

/-! ### Runs -/

/-- The calls of listeners that never come to be contested. -/
def Roll.uncontested (r : Roll) (calls : List Call) : List Call :=
  calls.filter fun c => !r.contested.contains c.callback

/-- One action on the emitter: it never fails, and the calls are those that the roll makes. -/
theorem Matches.step (hplain : ∀ l, p l = false → ∀ a, callbacks.lookup l ≠ some (.acts a)) (a : Action)
    (h : Matches p callbacks s r) (hp : ∀ l ∈ (r.step callbacks a).contested, p l = false) :
    Matches p callbacks ({ s with calls := [] }.act nestingLimit a).1 (r.step callbacks a) ∧
      ({ s with calls := [] }.act nestingLimit a).2 = none := by
  have hcleared : Matches p callbacks { s with calls := [] } { r with calls := [] } :=
    ⟨h.callbacks, h.listeners, h.kept, h.handles, rfl⟩
  exact hcleared.act_succ hplain (fun a h hp => h.act hplain a hp) hp

theorem Matches.run (hplain : ∀ l, p l = false → ∀ a, callbacks.lookup l ≠ some (.acts a)) (actions : List Action)
    (h : Matches p callbacks s r) (hp : ∀ l ∈ (r.after callbacks actions).contested, p l = false) :
    (s.run actions).map (fun answer => (answer.fault, answer.calls.filter (p ·.callback))) =
      (r.run callbacks actions).map fun calls => (none, calls.filter (p ·.callback)) := by
  induction actions generalizing s r with
  | nil => rfl
  | cons a rest ih =>
    obtain ⟨hstep, hfault⟩ := h.step hplain a fun l hl => hp l (Roll.after_contested _ rest hl)
    simp only [State.run, Roll.run, List.map_cons, List.filter_reverse]
    rw [ih hstep hp, hfault, hstep.calls]

/-- Whatever is subscribed, withdrawn and fired, also by listeners, nothing fails, and an emitter calls as a roll of
subscriptions does: each that stands is delivered to once, in order, and a function withdraws its own only.  This leaves out
the listeners that are contested, which must not act. -/
theorem run_delivers (callbacks : List (String × Callback)) (actions : List Action)
    (plain : ∀ l ∈ (Roll.after callbacks {} actions).contested, ∀ a, callbacks.lookup l ≠ some (.acts a)) :
    ((State.run ⟨.emitter {}, callbacks, [], []⟩ actions).map fun answer =>
        (answer.fault, (Roll.after callbacks {} actions).uncontested answer.calls)) =
      ((Roll.run callbacks {} actions).map fun calls =>
        (none, (Roll.after callbacks {} actions).uncontested calls)) ∧
    ∀ (depth : Nat) (event : Value) (r : Roll), ∃ asides : List (List Call), asides.length = r.live.length ∧
      (∀ delivery ∈ r.live.zip asides, (∀ a, callbacks.lookup delivery.1 ≠ some (.acts a)) → delivery.2 = []) ∧
      (r.fire callbacks (Roll.act callbacks depth) event).calls.reverse = r.calls.reverse ++
        (r.live.zip asides).flatMap fun delivery => ⟨delivery.1, some event⟩ :: delivery.2 := by
  refine ⟨?_, fun depth event r => Roll.foldl_call_calls (Roll.act_extends depth) event r.live r⟩
  let p : String → Bool := fun l => !(Roll.after callbacks {} actions).contested.contains l
  have hempty : Matches p callbacks ⟨.emitter {}, callbacks, [], []⟩ {} :=
    ⟨rfl, ⟨{}, rfl, rfl⟩, fun _ => rfl, by simp, rfl⟩
  refine hempty.run (fun l hl => plain l ?_) actions fun l hl => ?_
  · simpa [p] using hl
  · simpa [p] using hl

/-- A listener that fails is subscribed twice, around another one; both of its functions are called in turn, the first of
them twice. -/
theorem run_delivers_twice :
    let callbacks := [("a", Callback.fails ⟨.plain "no", nofun⟩), ("b", .silent)]
    let actions : List Action := [{ add := some "a", name := "1" }, { add := some "b", name := "2" },
      { add := some "a", name := "3" }, { fire := some .null }, { remove := some "1" }, { fire := some .null },
      { remove := some "3" }, { remove := some "1" }, { fire := some .null }]
    (Roll.after callbacks {} actions).contested = [] ∧
      ((State.run ⟨.emitter {}, callbacks, [], []⟩ actions).map fun answer =>
        (answer.fault, (Roll.after callbacks {} actions).uncontested answer.calls)) =
      ((Roll.run callbacks {} actions).map fun calls =>
        (none, (Roll.after callbacks {} actions).uncontested calls)) ∧
      (Roll.run callbacks {} actions).map (·.map (·.callback)) =
        [[], [], [], ["a", "b", "a"], [], ["b", "a"], [], [], ["b"]] := by
  intro callbacks actions
  have hcontested : (Roll.after callbacks {} actions).contested = [] := by decide +kernel
  exact ⟨hcontested, (run_delivers callbacks actions (by simp [hcontested])).1, by decide +kernel⟩

/-- The second call of one function strikes the other subscription of the listener off, and the event is not delivered. -/
theorem run_strikes_another :
    let callbacks := [("a", Callback.silent)]
    let actions : List Action := [{ add := some "a", name := "1" }, { add := some "a", name := "2" },
      { remove := some "1" }, { remove := some "1" }, { fire := some .null }]
    (State.run ⟨.emitter {}, callbacks, [], []⟩ actions).map (·.calls.length) = [0, 0, 0, 0, 0] ∧
      (Roll.run callbacks {} actions).map (·.length) = [0, 0, 0, 0, 1] ∧
      (Roll.after callbacks {} actions).contested = ["a"] := by
  decide +kernel

end Orchestra.Scenario.Emitter
