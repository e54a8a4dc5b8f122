import Mathlib.Data.List.Nodup
import Orchestra.Registry

/-!
# Orchestra.Proofs.Registry.Listing — what registering and withdrawing do to the lists

A registry is read through `providersFor` only.  As long as no kind is listed twice (`Tidy`), putting a provider on the
list of a kind appends it there, taking it off filters it out there, and neither touches another kind.
-/

namespace Orchestra

theorem nodup_eraseDups {α : Type} [BEq α] [LawfulBEq α] : ∀ xs : List α, xs.eraseDups.Nodup
  | [] => by simp
  | x :: xs => by
    rw [List.eraseDups_cons, List.nodup_cons]
    exact ⟨by simp [List.mem_eraseDups], nodup_eraseDups _⟩
termination_by xs => xs.length
decreasing_by exact Nat.lt_succ_of_le (List.length_filter_le _ _)

/-- The first element with a property is the same whether repetitions are kept or not. -/
theorem find?_eraseDups {α : Type} [BEq α] [LawfulBEq α] (q : α → Bool) :
    ∀ xs : List α, xs.eraseDups.find? q = xs.find? q
  | [] => by simp
  | x :: xs => by
    rw [List.eraseDups_cons, List.find?_cons, List.find?_cons]
    cases hx : q x with
    | true => rfl
    | false =>
      simp only
      rw [find?_eraseDups q, List.find?_filter]
      congr 1
      funext y
      by_cases hy : y = x
      · subst hy; simp [hx]
      · simp [hy]
termination_by xs => xs.length
decreasing_by exact Nat.lt_succ_of_le (List.length_filter_le _ _)

namespace Registry

/-- No kind is listed twice, and none is listed without providers. -/
structure Tidy (lists : List (Capability × List ProviderRef)) : Prop where
  nodup : (lists.map Prod.fst).Nodup
  nonempty : ∀ l ∈ lists, l.2 ≠ []

/-- The list of one kind. -/
def listed (lists : List (Capability × List ProviderRef)) (kind : Capability) : List ProviderRef :=
  (lists.lookup kind).getD []

variable {lists : List (Capability × List ProviderRef)} {p : ProviderRef} {kind k : Capability}

@[simp] theorem listed_nil : listed [] k = [] := rfl

theorem listed_cons (l : Capability × List ProviderRef) :
    listed (l :: lists) k = if k = l.1 then l.2 else listed lists k := by
  unfold listed
  rw [List.lookup_cons]
  by_cases h : k = l.1
  · simp [h]
  · rw [beq_false_of_ne h, if_neg h]

theorem listed_of_notMem (h : k ∉ lists.map Prod.fst) : listed lists k = [] := by
  induction lists with
  | nil => rfl
  | cons l rest ih =>
    simp only [List.map_cons, List.mem_cons, not_or] at h
    rw [listed_cons, if_neg h.1, ih h.2]

theorem listed_of_mem (ht : Tidy lists) {ps : List ProviderRef} (h : (k, ps) ∈ lists) : listed lists k = ps := by
  induction lists with
  | nil => simp at h
  | cons l rest ih =>
    obtain ⟨hn, hrest⟩ := List.nodup_cons.mp ht.nodup
    rw [listed_cons]
    rcases List.mem_cons.mp h with h | h
    · rw [← h, if_pos rfl]
    · have hk : k ≠ l.1 := fun hk => hn (hk ▸ List.mem_map_of_mem h)
      rw [if_neg hk, ih ⟨hrest, fun l' h' => ht.nonempty l' (List.mem_cons_of_mem _ h')⟩ h]

theorem mem_of_listed_ne_nil (h : listed lists k ≠ []) : (k, listed lists k) ∈ lists := by
  induction lists with
  | nil => simp at h
  | cons l rest ih =>
    rw [listed_cons] at h ⊢
    by_cases hk : k = l.1
    · rw [if_pos hk]; simp [hk]
    · rw [if_neg hk] at h ⊢
      exact List.mem_cons_of_mem _ (ih h)

/-! ### One kind -/

theorem listed_append : listed (append lists p kind) k = listed lists k ++ if k = kind then [p] else [] := by
  induction lists with
  | nil => simp [append, listed_cons]
  | cons l rest ih =>
    obtain ⟨k', ps⟩ := l
    unfold append
    by_cases h : k' = kind
    · subst h
      rw [if_pos rfl, listed_cons, listed_cons]
      by_cases hk : k = k' <;> simp [hk]
    · rw [if_neg h, listed_cons, listed_cons, ih]
      by_cases hk : k = k'
      · subst hk; simp [h]
      · simp [hk]

theorem map_fst_append_subset : ∀ k ∈ (append lists p kind).map Prod.fst, k = kind ∨ k ∈ lists.map Prod.fst := by
  induction lists with
  | nil => simp [append]
  | cons l rest ih =>
    obtain ⟨k', ps⟩ := l
    unfold append
    intro k hk
    by_cases h : k' = kind
    · rw [if_pos h] at hk
      exact Or.inr hk
    · rw [if_neg h] at hk
      rcases List.mem_cons.mp hk with hk | hk
      · exact Or.inr (hk ▸ List.mem_cons_self)
      · exact (ih k hk).imp_right (List.mem_cons_of_mem _)

theorem Tidy.append (ht : Tidy lists) : Tidy (append lists p kind) := by
  induction lists with
  | nil => exact ⟨by simp [Registry.append], by simp [Registry.append]⟩
  | cons l rest ih =>
    obtain ⟨k', ps⟩ := l
    obtain ⟨hn, hrest⟩ := List.nodup_cons.mp ht.nodup
    have hps := ht.nonempty (k', ps) List.mem_cons_self
    have ht' : Tidy rest := ⟨hrest, fun l h => ht.nonempty l (List.mem_cons_of_mem _ h)⟩
    unfold Registry.append
    by_cases h : k' = kind
    · rw [if_pos h]
      refine ⟨ht.nodup, fun l hl => ?_⟩
      rcases List.mem_cons.mp hl with rfl | hl
      · simp
      · exact ht'.nonempty l hl
    · rw [if_neg h]
      refine ⟨List.nodup_cons.mpr ⟨fun hk => ?_, (ih ht').nodup⟩, fun l hl => ?_⟩
      · exact (map_fst_append_subset _ hk).elim h hn
      · rcases List.mem_cons.mp hl with rfl | hl
        · exact hps
        · exact (ih ht').nonempty l hl

theorem listed_withdraw (ht : Tidy lists) :
    listed (withdraw lists p kind) k =
      if k = kind then (listed lists k).filter (·.index != p.index) else listed lists k := by
  induction lists with
  | nil => simp [withdraw]
  | cons l rest ih =>
    obtain ⟨k', ps⟩ := l
    obtain ⟨hn, hrest⟩ := List.nodup_cons.mp ht.nodup
    have ht' : Tidy rest := ⟨hrest, fun l h => ht.nonempty l (List.mem_cons_of_mem _ h)⟩
    unfold withdraw
    by_cases h : k' = kind
    · subst h
      rw [if_pos rfl]
      cases hf : ps.filter (·.index != p.index) with
      | nil =>
        -- the kind is gone from the lists, so nothing behind it may answer for it
        rw [listed_cons]
        by_cases hk : k = k'
        · subst hk
          rw [if_pos rfl, if_pos rfl, hf, listed_of_notMem hn]
        · simp [hk]
      | cons q qs =>
        rw [listed_cons, listed_cons]
        by_cases hk : k = k' <;> simp [hk, hf]
    · rw [if_neg h, listed_cons, listed_cons, ih ht']
      by_cases hk : k = k'
      · subst hk; simp [h]
      · simp [hk]

theorem withdraw_map_fst_sublist : ((withdraw lists p kind).map Prod.fst).Sublist (lists.map Prod.fst) := by
  induction lists with
  | nil => exact List.Sublist.refl _
  | cons l rest ih =>
    obtain ⟨k', ps⟩ := l
    unfold withdraw
    split
    · split
      · exact List.sublist_cons_self _ _
      · exact List.Sublist.refl _
    · exact ih.cons_cons _

theorem withdraw_nonempty (h : ∀ l ∈ lists, l.2 ≠ []) : ∀ l ∈ withdraw lists p kind, l.2 ≠ [] := by
  induction lists with
  | nil => simp [withdraw]
  | cons l rest ih =>
    obtain ⟨k', ps⟩ := l
    have hrest : ∀ l ∈ rest, l.2 ≠ [] := fun l hl => h l (List.mem_cons_of_mem _ hl)
    unfold withdraw
    split
    · split
      · exact hrest
      · intro l hl
        rcases List.mem_cons.mp hl with rfl | hl
        · simp
        · exact hrest l hl
    · intro l hl
      rcases List.mem_cons.mp hl with rfl | hl
      · exact h _ List.mem_cons_self
      · exact ih hrest l hl

theorem Tidy.withdraw (ht : Tidy lists) : Tidy (withdraw lists p kind) :=
  ⟨ht.nodup.sublist withdraw_map_fst_sublist, withdraw_nonempty ht.nonempty⟩

/-! ### Several kinds -/

theorem Tidy.foldl_append (ht : Tidy lists) (kinds : List Capability) :
    Tidy (kinds.foldl (Registry.append · p) lists) := by
  induction kinds generalizing lists with
  | nil => exact ht
  | cons kind rest ih => exact ih ht.append

theorem listed_foldl_append {kinds : List Capability} (h : kinds.Nodup) :
    listed (kinds.foldl (append · p) lists) k = listed lists k ++ if k ∈ kinds then [p] else [] := by
  induction kinds generalizing lists with
  | nil => simp
  | cons kind rest ih =>
    obtain ⟨hn, hrest⟩ := List.nodup_cons.mp h
    rw [List.foldl_cons, ih hrest, listed_append, List.append_assoc]
    by_cases hk : k = kind
    · subst hk; simp [hn]
    · simp [hk]

theorem Tidy.foldl_withdraw (ht : Tidy lists) (kinds : List Capability) :
    Tidy (kinds.foldl (Registry.withdraw · p) lists) := by
  induction kinds generalizing lists with
  | nil => exact ht
  | cons kind rest ih => exact ih ht.withdraw

theorem listed_foldl_withdraw (ht : Tidy lists) (kinds : List Capability) :
    listed (kinds.foldl (withdraw · p) lists) k =
      if k ∈ kinds then (listed lists k).filter (·.index != p.index) else listed lists k := by
  induction kinds generalizing lists with
  | nil => simp
  | cons kind rest ih =>
    rw [List.foldl_cons, ih ht.withdraw, listed_withdraw ht]
    by_cases hk : k = kind
    · subst hk; simp [List.filter_filter]
    · simp [hk]

/-! ### What is read off the lists -/

theorem isEnabled_iff {r : Registry} (ht : Tidy r.lists) : r.isEnabled = true ↔ ∃ k, r.providersFor k ≠ [] := by
  simp only [isEnabled, List.any_eq_true, Bool.not_eq_true', List.isEmpty_eq_false_iff]
  constructor
  · rintro ⟨⟨k, ps⟩, hl, hps⟩
    exact ⟨k, by rw [providersFor, ← listed, listed_of_mem ht hl]; exact hps⟩
  · rintro ⟨k, hk⟩
    exact ⟨_, mem_of_listed_ne_nil hk, hk⟩

theorem mem_all_iff {r : Registry} (ht : Tidy r.lists) {q : ProviderRef} : q ∈ r.all ↔ ∃ k, q ∈ r.providersFor k := by
  simp only [all, List.mem_flatMap]
  constructor
  · rintro ⟨⟨k, ps⟩, hl, hq⟩
    exact ⟨k, by rw [providersFor, ← listed, listed_of_mem ht hl]; exact hq⟩
  · rintro ⟨k, hq⟩
    exact ⟨_, mem_of_listed_ne_nil (List.ne_nil_of_mem hq), hq⟩

end Registry

end Orchestra
