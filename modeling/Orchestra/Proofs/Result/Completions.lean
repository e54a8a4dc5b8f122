import Mathlib.Data.List.Induction
import Orchestra.Proofs.Result.Ranking

/-!
# Orchestra.Proofs.Result.Completions — which completions are merged, and in which order

A list with places tells apart what is otherwise equal.  The first of each key are picked out with their places
(`firsts`), sorting them by score keeps the places of one score in order (`order_precedes`), and two lists that agree on
keys and scores get the same places in the same order (`order_places`): nothing else about a completion has a say.
-/

namespace Orchestra.Result

section Places

variable {α β κ : Type} [DecidableEq κ] {key : α → κ} {rank : α → Rat} {l : List α} {a : α}

/-- The elements whose key no earlier element has, each with its place. -/
def firsts (key : α → κ) (l : List α) : List (α × Nat) :=
  l.zipIdx.filter fun p => decide (key p.1 ∉ (l.take p.2).map key)

/-- The first elements of each key by descending score. -/
def order (key : α → κ) (rank : α → Rat) (l : List α) : List (α × Nat) :=
  (firsts key l).mergeSort fun p q => decide (rank q.1 ≤ rank p.1)

/-- One comes before another: its score is higher, or it is the same and its place is an earlier one. -/
def Precedes (rank : α → Rat) (p q : α × Nat) : Prop :=
  rank q.1 ≤ rank p.1 ∧ (rank q.1 = rank p.1 → p.2 < q.2)

/-! ### The first of each key -/

theorem mem_firsts {p : α × Nat} : p ∈ firsts key l ↔ l[p.2]? = some p.1 ∧ key p.1 ∉ (l.take p.2).map key := by
  rw [firsts, List.mem_filter, List.mem_zipIdx_iff_getElem?, decide_eq_true_iff]

theorem firsts_concat (l : List α) (a : α) :
    firsts key (l ++ [a]) = firsts key l ++ if key a ∈ l.map key then [] else [(a, l.length)] := by
  rw [firsts, firsts, List.zipIdx_append, List.zipIdx_singleton, Nat.zero_add, List.filter_append,
    List.filter_singleton, List.take_left]
  congr 1
  · refine List.filter_congr fun p hp => ?_
    have hlt : p.2 < l.length := (List.mem_zipIdx' hp).1
    rw [List.take_append_of_le_length hlt.le]
  · by_cases hkey : key a ∈ l.map key
    · rw [if_pos hkey, decide_eq_false (not_not_intro hkey)]
      rfl
    · rw [if_neg hkey, decide_eq_true hkey]
      rfl

theorem firsts_fst [BEq κ] [LawfulBEq κ] (l : List α) : (firsts key l).map Prod.fst = firstByKey key [] l := by
  induction l using List.reverseRecOn with
  | nil => rfl
  | append_singleton l a ih =>
    rw [firsts_concat, firstByKey_concat, List.map_append, ih]
    split <;> rfl

/-- They are listed by place. -/
theorem firsts_places (l : List α) : (firsts key l).Pairwise fun p q => p.2 < q.2 := by
  have hplaces : (l.zipIdx.map Prod.snd).Pairwise (· < ·) := List.zipIdx_map_snd 0 l ▸ List.pairwise_lt_range' 1
  exact (List.pairwise_map.mp hplaces).sublist List.filter_sublist

theorem firsts_map {f : α → β} {key' : β → κ} (hkey : ∀ a, key' (f a) = key a) (l : List α) :
    firsts key' (l.map f) = (firsts key l).map (Prod.map f id) := by
  rw [firsts, firsts, List.zipIdx_map, List.filter_map]
  refine congrArg (List.map _) (List.filter_congr fun p _ => decide_eq_decide.mpr (not_congr ?_))
  rw [Prod.map_fst, Prod.map_snd, id_eq, hkey, ← List.map_take, List.map_map, funext hkey (f := key' ∘ f)]

/-! ### By score -/

theorem order_perm (l : List α) : (order key rank l).Perm (firsts key l) := List.mergeSort_perm _ _

/-- **Equal scores stay in order**, and no lower one comes first. -/
theorem order_precedes (l : List α) : (order key rank l).Pairwise (Precedes rank) := by
  refine List.pairwise_iff_forall_sublist.mpr fun {p q} hpq => ?_
  have hrank := List.pairwise_iff_forall_sublist.mp (mergeSort_descending (fun p : α × Nat => rank p.1) _) hpq
  refine ⟨hrank, fun htie => ?_⟩
  -- among those of this score, sorting has changed nothing
  have hscore := hpq.filter fun a => rank a.1 == rank p.1
  rw [order, filter_mergeSort (fun p : α × Nat => rank p.1)] at hscore
  simp only [List.filter_cons, List.filter_nil, htie, BEq.rfl, if_true] at hscore
  exact List.pairwise_iff_forall_sublist.mp (firsts_places l) (hscore.trans List.filter_sublist)

theorem Precedes.asymm {p q : α × Nat} (hpq : Precedes rank p q) (hqp : Precedes rank q p) : p = q := by
  have htie := le_antisymm hpq.1 hqp.1
  exact absurd (hpq.2 htie) (hqp.2 htie.symm).asymm

/-- There is no other order in which the first of each key precede one another. -/
theorem order_unique {ps : List (α × Nat)} (hperm : ps.Perm (firsts key l)) (hps : ps.Pairwise (Precedes rank)) :
    ps = order key rank l :=
  List.Perm.eq_of_pairwise (fun _ _ _ _ hpq hqp => hpq.asymm hqp) hps (order_precedes l)
    (hperm.trans (order_perm l).symm)

theorem order_map {f : α → β} {key' : β → κ} {rank' : β → Rat} (hkey : ∀ a, key' (f a) = key a)
    (hrank : ∀ a, rank' (f a) = rank a) (l : List α) :
    order key' rank' (l.map f) = (order key rank l).map (Prod.map f id) := by
  rw [order, order, firsts_map hkey, List.map_mergeSort]
  intro p _ q _
  rw [Prod.map_fst, Prod.map_fst, hrank, hrank]

end Places

/-! ### Completions -/

variable {cs ds : List Completion}

/-- What a completion is told apart by: its text and where it starts, and its score. -/
def mark (c : Completion) : (String × Position) × Rat := (c.key, c.rank)

theorem order_fst (cs : List Completion) :
    (order Completion.key Completion.rank cs).map Prod.fst = ranked (dedup cs) := by
  have hsort := List.map_mergeSort (r := fun p q : Completion × Nat => decide (q.1.rank ≤ p.1.rank))
    (s := fun a b => decide (b.rank ≤ a.rank)) (f := Prod.fst) (l := firsts Completion.key cs) fun _ _ _ _ => rfl
  rw [order, hsort, firsts_fst]
  rfl

/-- **Nothing else has a say**: with the same keys and scores, the same places come in the same order. -/
theorem order_places (h : cs.map mark = ds.map mark) :
    (order Completion.key Completion.rank cs).map Prod.snd = (order Completion.key Completion.rank ds).map Prod.snd := by
  have hmarks : ∀ cs : List Completion, (order Completion.key Completion.rank cs).map Prod.snd =
      (order Prod.fst Prod.snd (cs.map mark)).map Prod.snd := by
    intro cs
    rw [order_map (fun _ => rfl) (fun _ => rfl), List.map_map]
    rfl
  rw [hmarks, hmarks, h]

/-- A completion that is merged is the first of all that have its key. -/
theorem find?_of_mem_ranked {c : Completion} (h : c ∈ ranked (dedup cs)) : cs.find? (·.key == c.key) = some c := by
  rw [← order_fst] at h
  obtain ⟨⟨c, i⟩, hp, rfl⟩ := List.mem_map.mp h
  obtain ⟨hplace, hfirst⟩ := mem_firsts.mp ((order_perm cs).mem_iff.mp hp)
  obtain ⟨hi, hat⟩ := List.getElem?_eq_some_iff.mp hplace
  refine List.find?_eq_some_iff_getElem.mpr ⟨BEq.rfl, i, hi, hat, fun j hj => ?_⟩
  refine (Bool.not_eq_true' _).mpr (beq_eq_false_iff_ne.mpr fun hkey => hfirst ?_)
  exact List.mem_map.mpr ⟨cs[j], List.mem_take_iff_getElem.mpr ⟨j, by omega, rfl⟩, hkey⟩

/-- The first completions of each key with their places, each before those of lower score and those of its own score that
came later. -/
structure Selected (cs : List Completion) (ps : List (Completion × Nat)) : Prop where
  perm : ps.Perm (firsts Completion.key cs)
  precedes : ps.Pairwise (Precedes Completion.rank)

theorem selected_order (cs : List Completion) : Selected cs (order Completion.key Completion.rank cs) :=
  ⟨order_perm cs, order_precedes cs⟩

theorem Selected.eq_order {ps : List (Completion × Nat)} (h : Selected cs ps) :
    ps = order Completion.key Completion.rank cs := order_unique h.perm h.precedes

/-- The completions of all results, in the order of the results. -/
def arrived (rs : List CompletionResult) : List Completion := rs.flatMap CompletionResult.completions

/-- **Merged completions** are the first of each key of all that there are, by descending score, those of one score in
the order in which they came; there is only one such selection.  Keys and scores alone decide which they are and in
which order, so a later one of higher score does not replace the first. -/
theorem mergeCompletions_selected (rs : List CompletionResult) :
    ∃ ps, Selected (arrived rs) ps ∧ (∀ qs, Selected (arrived rs) qs → qs = ps) ∧
      (mergeCompletions rs).completions = ps.map Prod.fst ∧
      ((mergeCompletions rs).completions.map Completion.key).Nodup ∧
      (∀ k, k ∈ (mergeCompletions rs).completions.map Completion.key ↔ k ∈ (arrived rs).map Completion.key) ∧
      (∀ c ∈ (mergeCompletions rs).completions, (arrived rs).find? (·.key == c.key) = some c) ∧
      Descending (mergeCompletions rs).completions ∧
      ∀ rs' qs, (arrived rs').map mark = (arrived rs).map mark → Selected (arrived rs') qs →
        (mergeCompletions rs').completions = qs.map Prod.fst ∧ qs.map Prod.snd = ps.map Prod.snd := by
  refine ⟨order Completion.key Completion.rank (arrived rs), selected_order _, fun qs h => h.eq_order,
    (order_fst _).symm, ?_, fun k => mem_key_ranked_dedup, fun c => find?_of_mem_ranked, descending_ranked _,
    fun rs' qs hmarks h => ?_⟩
  · exact ((ranked_perm _).map _).nodup_iff.mpr (nodup_map_firstByKey _)
  · rw [h.eq_order]
    exact ⟨(order_fst _).symm, order_places hmarks⟩

/-- A suggestion at the beginning of a document with one of the two whole scores. -/
def suggestion (text : String) (score : Fin 2) : Completion :=
  ⟨text, .point 1 1, .snippet, .int score, none, by revert score; decide⟩

-- the second "a" is left out although it has the higher score
example :
    let first : CompletionResult := { completions := [suggestion "a" 0, suggestion "b" 1] }
    let second : CompletionResult := { completions := [suggestion "a" 1, suggestion "c" 1] }
    ((mergeCompletions [first, second]).completions.map fun c => (c.text, c.score)) =
      [("b", .int 1), ("c", .int 1), ("a", .int 0)] := by cbv

end Orchestra.Result
