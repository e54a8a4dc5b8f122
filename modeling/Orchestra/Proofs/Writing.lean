import Mathlib.Data.List.Forall2
import Orchestra.Fault

/-!
# Orchestra.Proofs.Writing — which values can be written

A value can be written if every whole number in it is short enough (`inSentence_eq_ok`), and a list of values if each of
them can (`mapM_eq_ok`).
-/

namespace Orchestra

/-! ### What may fail, taken apart -/

section Parts

variable {α β : Type} {x : Except Fault α} {y : β} {g : Fault}

theorem map_eq_ok {f : α → β} (h : x.map f = .ok y) : ∃ a, x = .ok a ∧ f a = y := by
  cases x with
  | error _ => cases h
  | ok a => exact ⟨a, rfl, Except.ok.inj h⟩

theorem map_eq_error {f : α → β} (h : x.map f = .error g) : x = .error g := by
  cases x with
  | error _ => exact congrArg Except.error (Except.error.inj h)
  | ok a => cases h

theorem bind_eq_ok {f : α → Except Fault β} (h : x >>= f = .ok y) : ∃ a, x = .ok a ∧ f a = .ok y := by
  cases x with
  | error _ => cases h
  | ok a => exact ⟨a, rfl, h⟩

theorem bind_eq_error {f : α → Except Fault β} (h : x >>= f = .error g) :
    x = .error g ∨ ∃ a, x = .ok a ∧ f a = .error g := by
  cases x with
  | error _ => exact .inl (congrArg Except.error (Except.error.inj h))
  | ok a => exact .inr ⟨a, rfl, h⟩

end Parts

/-! ### Lists -/

/-- A list is written element by element. -/
theorem mapM_eq_ok {α β : Type} {f : α → Except Fault β} {xs : List α} {ys : List β} :
    xs.mapM f = .ok ys ↔ List.Forall₂ (fun x y => f x = .ok y) xs ys := by
  induction xs generalizing ys with
  | nil => cases ys <;> simp [pure, Except.pure]
  | cons x xs ih =>
    rw [List.mapM_cons]
    cases hx : f x with
    | error g => cases ys <;> simp [bind, Except.bind, hx]
    | ok y =>
      cases hxs : xs.mapM f with
      | error g => cases ys <;> simp [bind, Except.bind, ← ih, hxs]
      | ok ys' => cases ys <;> simp [bind, Except.bind, pure, Except.pure, ← ih, hxs, hx]

/-- What goes wrong with a list goes wrong with one of its elements. -/
theorem mapM_eq_error {α β : Type} {f : α → Except Fault β} {xs : List α} {g : Fault} (h : xs.mapM f = .error g) :
    ∃ x ∈ xs, f x = .error g := by
  induction xs with
  | nil => cases h
  | cons x xs ih =>
    rw [List.mapM_cons] at h
    obtain hx | ⟨y, -, h⟩ := bind_eq_error h
    · exact ⟨x, List.mem_cons_self, hx⟩
    · obtain hxs | ⟨ys, -, h⟩ := bind_eq_error h
      · obtain ⟨x', hmem, hx'⟩ := ih hxs
        exact ⟨x', List.mem_cons_of_mem _ hmem, hx'⟩
      · cases h

theorem mapM_append {α β : Type} (f : α → Except Fault β) (xs ys : List α) :
    (xs ++ ys).mapM f = (xs.mapM f).bind fun as => (ys.mapM f).map (as ++ ·) := by
  rw [List.mapM_append]
  cases xs.mapM f <;> cases ys.mapM f <;> rfl

namespace Value

/-- The whole number is not too long to be written. -/
def Short (n : Int) : Prop := n.natAbs < Nat.pow 10 Number.digitLimit

instance (n : Int) : Decidable (Short n) := inferInstanceAs (Decidable (_ < _))

mutual

/-- The whole numbers in a value. -/
def wholes : Value → List Int
  | number (.int n) => [n]
  | list items => wholesItems items
  | object entries => wholesEntries entries
  | _ => []

def wholesItems : List Value → List Int
  | [] => []
  | v :: rest => wholes v ++ wholesItems rest

def wholesEntries : List (String × Value) → List Int
  | [] => []
  | (_, v) :: rest => wholes v ++ wholesEntries rest

end

mutual

theorem shown?_isSome (v : Value) : v.shown?.isSome = true ↔ ∀ n ∈ v.wholes, Short n := by
  cases v with
  | null | bool b | text s => simp [shown?, wholes]
  | number n =>
    cases n with
    | int n =>
      simp only [shown?, Number.shown?, wholes, List.mem_singleton, forall_eq, Short]
      split <;> simp_all
    | real x => simp [shown?, Number.shown?, wholes]
  | list items => simpa [shown?, wholes] using shownItems?_isSome items
  | object entries => simpa [shown?, wholes] using shownEntries?_isSome entries

theorem shownItems?_isSome (items : List Value) :
    (shownItems? items).isSome = true ↔ ∀ n ∈ wholesItems items, Short n := by
  cases items with
  | nil => simp [shownItems?, wholesItems]
  | cons v rest =>
    have hv := shown?_isSome v
    have hrest := shownItems?_isSome rest
    simp only [wholesItems, List.forall_mem_append, ← hv, ← hrest, shownItems?]
    cases v.shown? <;> cases shownItems? rest <;> simp

theorem shownEntries?_isSome (entries : List (String × Value)) :
    (shownEntries? entries).isSome = true ↔ ∀ n ∈ wholesEntries entries, Short n := by
  cases entries with
  | nil => simp [shownEntries?, wholesEntries]
  | cons e rest =>
    obtain ⟨name, v⟩ := e
    have hv := shown?_isSome v
    have hrest := shownEntries?_isSome rest
    simp only [wholesEntries, List.forall_mem_append, ← hv, ← hrest, shownEntries?]
    cases v.shown? <;> cases shownEntries? rest <;> simp

end

theorem inSentence_int {n : Int} (h : Short n) : inSentence (.number (.int n)) = .ok (toString n) := by
  have hshown : (Number.int n).shown? = some (toString n) := by
    unfold Number.shown?
    exact if_pos h
  rw [inSentence, inSentence?, shown?, hshown]
  · rfl
  · exact nofun

/-- **A value can be written** in a sentence if every whole number in it is short. -/
theorem inSentence_eq_ok (v : Value) : (∃ s, v.inSentence = .ok s) ↔ ∀ n ∈ v.wholes, Short n := by
  rw [← shown?_isSome]
  have hsame : v.inSentence?.isSome = v.shown?.isSome := by cases v <;> rfl
  rw [← hsame, inSentence]
  cases v.inSentence? <;> simp

end Value

end Orchestra
