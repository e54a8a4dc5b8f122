import Mathlib.Data.List.Induction
import Orchestra.Proofs.Context.Overlay
import Orchestra.Scenario.Context

/-!
# Orchestra.Proofs.Context.Updates — a context store is the fold of its updates

What counts of a run is the list of the changes committed since the last clearing (`committed`).  The current context is
what those lead to from an empty one, and the history holds the last of the contexts before it (`Recalls`, kept by every
step).  Nothing else that happens to a store shows in it, and neither does who watches it.
-/

namespace Orchestra

/-! ### Changes by name -/

namespace Changes

/-- The change that is given under a name. -/
def given (d : Changes) (name : String) : Option Change := d.find? (·.name = name)

theorem given_put (d : Changes) (b : Change) (name : String) :
    given (d.put b) name = if b.name = name then some b else given d name := by
  unfold given
  induction d with
  | nil => by_cases hb : b.name = name <;> simp [put, hb]
  | cons a rest ih =>
    unfold put
    by_cases ha : a.name = b.name
    · rw [if_pos ha]
      by_cases hb : b.name = name
      · simp [hb]
      · have ha' : a.name ≠ name := ha ▸ hb
        simp [hb, ha']
    · rw [if_neg ha, List.find?_cons, List.find?_cons, ih]
      by_cases hb : b.name = name
      · have ha' : a.name ≠ name := hb ▸ ha
        simp [hb, ha']
      · simp [hb]

/-- What is given on top wins, and of that what is given last. -/
theorem given_update (d e : Changes) (name : String) :
    given (update d e) name = (given e.reverse name).or (given d name) := by
  unfold update
  induction e generalizing d with
  | nil => rfl
  | cons b e ih =>
    rw [List.foldl_cons, ih, given_put, List.reverse_cons]
    unfold given
    rw [List.find?_append, Option.or_assoc]
    by_cases hb : b.name = name <;> simp [hb]

end Changes

namespace ContextStore

/-- The fields win over the extras. -/
theorem given_delta (extras : Extras) (fields : Changes) (name : String) :
    (delta extras fields).given name = (Changes.given fields.reverse name).or (extras.toChanges.given name) :=
  Changes.given_update _ _ name

/-! ### One update -/

variable {s : ContextStore} {extras : Extras} {fields : Changes}

theorem new_eq_ok {limit : Int} {store : ContextStore} (h : new limit = .ok store) :
    1 ≤ limit ∧ store.limit = limit.toNat ∧ store.current = Context.empty ∧ store.history = [] := by
  unfold new at h
  split at h
  · cases h
    exact ⟨‹_›, rfl, rfl, rfl⟩
  · cases h

theorem set_of_unknown (h : (delta extras fields).unknownNames ≠ []) :
    s.set extras fields = .error (Fault.ofUnknownFields (delta extras fields).unknownNames) := by
  simp only [set, Context.overlay_unknown h]
  rfl

theorem set_of_known (h : (delta extras fields).unknownNames = []) (hs : s.limit < capacity) :
    let next := (delta extras fields).foldl Context.apply s.current
    s.set extras fields =
      .ok ({ s with current := next, history := lastOnes s.limit (s.history ++ [s.current]) },
        ⟨next, delta extras fields⟩) := by
  simp only [set, Context.overlay, h, if_neg (Nat.not_le.mpr hs)]
  rfl

theorem lastOnes_lastOnes_append {α : Type} (n : Nat) (xs ys : List α) :
    lastOnes n (lastOnes n xs ++ ys) = lastOnes n (xs ++ ys) := by
  unfold lastOnes
  by_cases h : xs.length ≤ n
  · rw [Nat.sub_eq_zero_of_le h, List.drop_zero]
  · have hlen : (xs.drop (xs.length - n)).length = n := by rw [List.length_drop]; omega
    rw [List.length_append, hlen, Nat.add_sub_cancel_left]
    have hle : xs.length - n ≤ xs.length := Nat.sub_le ..
    rw [← List.drop_append_of_le_length hle, List.drop_drop, List.length_append]
    congr 1
    omega

theorem lastOnes_nil {α : Type} (n : Nat) : lastOnes n ([] : List α) = [] := List.drop_nil

theorem length_lastOnes {α : Type} (n : Nat) (xs : List α) : (lastOnes n xs).length = min xs.length n := by
  unfold lastOnes
  rw [List.length_drop]
  omega

end ContextStore

/-! ### Contexts from changes -/

namespace Context

/-- The context that changes lead to, one after the other. -/
def after (ds : List Changes) : Context := ds.foldl (fun c d => d.foldl apply c) empty

/-- The contexts before each of the changes, the first first. -/
def snapshots (ds : List Changes) : List Context := (List.range ds.length).map fun i => after (ds.take i)

@[simp] theorem after_nil : after [] = empty := rfl

theorem after_concat (ds : List Changes) (d : Changes) : after (ds ++ [d]) = d.foldl apply (after ds) := by
  simp [after]

theorem overlay_after {ds : List Changes} {d : Changes} (h : d.unknownNames = []) :
    (after ds).overlay d = .ok (after (ds ++ [d])) := by
  rw [after_concat, overlay, h]

theorem snapshots_concat (ds : List Changes) (d : Changes) : snapshots (ds ++ [d]) = snapshots ds ++ [after ds] := by
  unfold snapshots
  rw [List.length_append, List.length_singleton, List.range_succ, List.map_append, List.map_singleton, List.take_left]
  congr 1
  refine List.map_congr_left fun i hi => ?_
  rw [List.take_append_of_le_length (Nat.le_of_lt (List.mem_range.mp hi))]

theorem length_snapshots (ds : List Changes) : (snapshots ds).length = ds.length := by
  simp [snapshots]

end Context

namespace Scenario.Context

open ContextStore (delta lastOnes capacity)

/-! ### Observers -/

/-- What the caller sees of an update that was committed: the failure of the observer, if it has one. -/
def Observer.reply (next : Context) : Observer → Reply
  | .fails f => .fault f
  | _ => .context next

/-- Whoever observes at all is told. -/
def Observer.told? (update : ContextUpdate) : Observer → Option ContextUpdate
  | .absent => none
  | _ => some update

/-! ### Runs -/

/-- The changes that a step is to make, if it names known facets only. -/
def Step.changes? : Step → Option Changes
  | .set extras fields => if (delta extras fields).unknownNames = [] then some (delta extras fields) else none
  | _ => none

/-- What was committed since the last clearing, after one step more. -/
def commit (ds : List Changes) : Step → List Changes
  | .clear => []
  | step => ds ++ step.changes?.toList

/-- The changes that steps committed since the last clearing, the first first. -/
def committed (steps : List Step) : List Changes := steps.foldl commit []

/-- The state after steps, each under an observer of its own. -/
def State.after (s : State) (watched : List (Observer × Step)) : State :=
  watched.foldl (fun s x => ({ s with observer := x.1 }.step x.2).1) s

/-- The store is the fold of what was committed. -/
structure Recalls (limit : Nat) (ds : List Changes) (store : ContextStore) : Prop where
  bound : store.limit = limit
  current : store.current = Context.after ds
  history : store.history = lastOnes limit (Context.snapshots ds)
  known : ∀ d ∈ ds, d.unknownNames = []

variable {limit : Nat} {ds : List Changes} {s : State} {extras : Extras} {fields : Changes}

theorem Recalls.unique {store store' : ContextStore} (h : Recalls limit ds store) (h' : Recalls limit ds store') :
    store = store' := by
  have hbound := h.bound.trans h'.bound.symm
  have hcurrent := h.current.trans h'.current.symm
  have hhistory := h.history.trans h'.history.symm
  cases store
  cases store'
  simp only at hbound hcurrent hhistory
  subst hbound hcurrent hhistory
  rfl

theorem committed_concat (steps : List Step) (step : Step) :
    committed (steps ++ [step]) = commit (committed steps) step := by
  simp [committed]

theorem State.after_concat (s : State) (watched : List (Observer × Step)) (o : Observer) (step : Step) :
    s.after (watched ++ [(o, step)]) = ({ s.after watched with observer := o }.step step).1 := by
  simp [after]

/-- An update with an unknown name fails, changes nothing and is not told to anyone. -/
theorem State.step_set_unknown (h : (delta extras fields).unknownNames ≠ []) :
    s.step (.set extras fields) = (s, .fault (Fault.ofUnknownFields (delta extras fields).unknownNames), none) := by
  simp only [State.step, ContextStore.set_of_unknown h]

/-- Any other update is committed and told once to the observer, whose failure is then what the caller sees. -/
theorem State.step_set_known (hr : Recalls limit ds s.store) (hl : limit < capacity)
    (h : (delta extras fields).unknownNames = []) :
    Recalls limit (ds ++ [delta extras fields]) (s.step (.set extras fields)).1.store ∧
      (s.step (.set extras fields)).2 =
        let next := Context.after (ds ++ [delta extras fields])
        (s.observer.reply next, s.observer.told? ⟨next, delta extras fields⟩) := by
  have hset := ContextStore.set_of_known (s := s.store) h (hr.bound ▸ hl)
  have hnext : (delta extras fields).foldl Context.apply s.store.current =
      Context.after (ds ++ [delta extras fields]) := by
    rw [Context.after_concat, hr.current]
  have hhistory : lastOnes s.store.limit (s.store.history ++ [s.store.current]) =
      lastOnes limit (Context.snapshots (ds ++ [delta extras fields])) := by
    rw [hr.bound, hr.history, hr.current, ContextStore.lastOnes_lastOnes_append, Context.snapshots_concat]
  have hknown : ∀ d ∈ ds ++ [delta extras fields], d.unknownNames = [] := by
    intro d hd
    rcases List.mem_append.mp hd with hd | hd
    · exact hr.known d hd
    · rw [List.mem_singleton.mp hd]
      exact h
  simp only [hnext, hhistory] at hset
  unfold State.step
  simp only [hset]
  cases s.observer <;> exact ⟨⟨hr.bound, rfl, rfl, hknown⟩, rfl⟩

theorem State.step_recalls (hr : Recalls limit ds s.store) (hl : limit < capacity) (step : Step) :
    Recalls limit (commit ds step) (s.step step).1.store := by
  cases step with
  | set extras fields =>
    by_cases h : (delta extras fields).unknownNames = []
    · simp only [commit, Step.changes?, if_pos h]
      exact (State.step_set_known hr hl h).1
    · rw [State.step_set_unknown h]
      simpa only [commit, Step.changes?, if_neg h, Option.toList_none, List.append_nil] using hr
  | clear => exact ⟨hr.bound, rfl, (ContextStore.lastOnes_nil limit).symm, fun _ hd => nomatch hd⟩
  | get | history | spoil =>
    simp only [commit, Step.changes?, Option.toList_none, List.append_nil]
    exact hr

theorem State.after_recalls {store : ContextStore} {limit : Int} (h : ContextStore.new limit = .ok store)
    (hl : limit.toNat < capacity) (o : Observer) (watched : List (Observer × Step)) :
    Recalls limit.toNat (committed (watched.map Prod.snd)) ((State.mk store o none).after watched).store := by
  obtain ⟨-, hlimit, hcurrent, hhistory⟩ := ContextStore.new_eq_ok h
  induction watched using List.reverseRecOn with
  | nil => exact ⟨hlimit, hcurrent, hhistory.trans (ContextStore.lastOnes_nil _).symm, fun _ hd => nomatch hd⟩
  | append_singleton watched x ih =>
    obtain ⟨o', step⟩ := x
    rw [State.after_concat, List.map_append, List.map_singleton, committed_concat]
    exact State.step_recalls (s := { (State.mk store o none).after watched with observer := o' }) ih hl step

theorem State.step_observer (s : State) (step : Step) : (s.step step).1.observer = s.observer := by
  cases step with
  | set extras fields =>
    simp only [State.step]
    split
    · rfl
    · split <;> rfl
  | get | history | clear | spoil => rfl

/-- The last answer of a run is that of the state which the steps before it lead to. -/
theorem State.run_concat (s : State) (steps : List Step) (step : Step) :
    s.run (steps ++ [step]) = s.run steps ++
      [let res := (s.after (steps.map (s.observer, ·))).step step
       ⟨res.2.1, res.2.2, res.1.store.current, res.1.store.history.length⟩] := by
  induction steps generalizing s with
  | nil => rfl
  | cons first steps ih =>
    have hobs := State.step_observer s first
    simp only [List.cons_append, State.run, ih, hobs]
    rfl

/-- **Updates.**  With a limit that can be counted, after any steps under any observers: the current context is what the
committed changes lead to, the history holds the last of the contexts before it, and both are the same whoever watched.
Of an update the last change of a name counts, and fields before extras.  One that names an unknown field fails and leaves
all as it was, and nobody is told; any other is committed and told exactly once, with the new context and its changes, also
if the observer then fails, which the caller sees; clearing and reading are not told. -/
theorem run_law {limit : Int} (h : 1 ≤ limit) (hl : limit.toNat < capacity) :
    ∃ store, ContextStore.new limit = .ok store ∧ ∀ (o : Observer) (watched : List (Observer × Step)),
      let s := (State.mk store o none).after watched
      let steps := watched.map Prod.snd
      let ds := committed steps
      let c := fun i => Context.after (ds.take i)
      (c 0 = Context.empty ∧ ∀ (i : Nat) (hi : i < ds.length), (c i).overlay ds[i] = .ok (c (i + 1))) ∧
      s.store.current = c ds.length ∧
      s.store.history = lastOnes limit.toNat ((List.range ds.length).map c) ∧
      s.store.history.length = min ds.length limit.toNat ∧
      (∀ (o' : Observer) (watched' : List (Observer × Step)), watched'.map Prod.snd = steps →
        ((State.mk store o' none).after watched').store = s.store) ∧
      ∀ o' : Observer,
        let s' := { s with observer := o' }
        (s'.step .get).2 = (.context (c ds.length), none) ∧
        (s'.step .history).2 = (.history (lastOnes limit.toNat ((List.range ds.length).map c)) limit.toNat, none) ∧
        (s'.step .clear).2 = (.done, none) ∧
        ∀ (extras : Extras) (fields : Changes),
          let d := delta extras fields
          (∀ name, d.given name = (Changes.given fields.reverse name).or (extras.toChanges.given name)) ∧
          (d.unknownNames ≠ [] →
            s'.step (.set extras fields) = (s', .fault (Fault.ofUnknownFields d.unknownNames), none)) ∧
          (d.unknownNames = [] →
            committed (steps ++ [.set extras fields]) = ds ++ [d] ∧
            (s'.step (.set extras fields)).2 =
              let next := Context.after (ds ++ [d])
              (o'.reply next, o'.told? ⟨next, d⟩)) := by
  have hnew : ∃ store, ContextStore.new limit = .ok store := ⟨_, by rw [ContextStore.new, dif_pos h]⟩
  obtain ⟨store, hstore⟩ := hnew
  refine ⟨store, hstore, fun o watched => ?_⟩
  intro s steps ds c
  have hr : Recalls limit.toNat ds s.store := State.after_recalls hstore hl o watched
  have hcurrent : s.store.current = c ds.length := by
    rw [hr.current, ← congrArg Context.after (List.take_length (l := ds))]
  refine ⟨⟨rfl, fun i hi => ?_⟩, hcurrent, hr.history, ?_, fun o' watched' hsame => ?_, fun o' => ?_⟩
  · have hknown := hr.known _ (List.getElem_mem hi)
    rw [Context.overlay_after hknown, List.take_append_getElem hi]
  · rw [hr.history, ContextStore.length_lastOnes, Context.length_snapshots]
  · have hr' : Recalls limit.toNat ds ((State.mk store o' none).after watched').store := by
      have := State.after_recalls hstore hl o' watched'
      rwa [hsame] at this
    exact hr'.unique hr
  · intro s'
    refine ⟨?_, ?_, rfl, fun extras fields =>
      ⟨ContextStore.given_delta extras fields, State.step_set_unknown, fun hknown => ⟨?_, ?_⟩⟩⟩
    · simp only [State.step, s', hcurrent]
    · simp only [State.step, s', hr.history, hr.bound]
      rfl
    · simp only [committed_concat, commit, Step.changes?, if_pos hknown, Option.toList_some, ds]
    · exact (State.step_set_known (s := s') hr hl hknown).2

/-- What an observer fails with. -/
def blind : Fault := .outside .value "cannot see" false

/-- An update under an observer that fails stands, and evicts the oldest context from a history of one. -/
theorem run_law_evicting :
    (1 : Int) ≤ 1 ∧ (1 : Int).toNat < capacity ∧ ∃ store, ContextStore.new 1 = .ok store ∧
      let s := (State.mk store .listens none).after
        [(.listens, .set (.changes [.language (some "py")]) []), (.fails blind, .set .nothing [.framework (some "x")])]
      s.store.current = { language := some "py", framework := some "x" } ∧
        s.store.history = [{ language := some "py" }] := by
  obtain ⟨store, hstore, hlaw⟩ := run_law (show (1 : Int) ≤ 1 by decide) (by decide)
  obtain ⟨-, hcurrent, hhistory, -⟩ := hlaw .listens
    [(.listens, .set (.changes [.language (some "py")]) []), (.fails blind, .set .nothing [.framework (some "x")])]
  exact ⟨by decide, by decide, store, hstore, hcurrent, hhistory⟩

/-- A limit that a store is made with, but with which no update is ever taken. -/
theorem run_uncountable :
    run 9223372036854775808 .listens [.set .nothing [.language (some "py")], .get] =
      .ok [⟨.fault .historyTooLong, none, Context.empty, 0⟩, ⟨.context Context.empty, none, Context.empty, 0⟩] :=
  rfl

end Scenario.Context

end Orchestra
