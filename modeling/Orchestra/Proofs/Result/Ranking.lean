import Mathlib.Algebra.Order.Ring.Unbundled.Rat
import Orchestra.Proofs.Result.Distinct

/-!
# Orchestra.Proofs.Result.Ranking — the best first, ties in order of arrival

A ranking is decided by what it holds of each score, in order: sorting leaves that alone (`ofRank_ranked`), and two
rankings that agree on it are the same (`eq_of_ofRank`).  So a stretch of completions may be reduced and ranked before the
whole is (`ranked_dedup_merged`).
-/

namespace Orchestra.Result

variable {a b : Completion} {cs ds : List Completion} {score : Rat}

/-! ### Sorting by score -/

section Sorting

variable {α : Type} (rank : α → Rat)

theorem rank_trans (a b c : α) (hab : decide (rank b ≤ rank a) = true) (hbc : decide (rank c ≤ rank b) = true) :
    decide (rank c ≤ rank a) = true :=
  decide_eq_true (le_trans (of_decide_eq_true hbc) (of_decide_eq_true hab))

theorem rank_total (a b : α) : (decide (rank b ≤ rank a) || decide (rank a ≤ rank b)) = true := by
  rw [Bool.or_eq_true, decide_eq_true_iff, decide_eq_true_iff]
  exact le_total _ _

theorem mergeSort_descending (l : List α) :
    (l.mergeSort fun a b => decide (rank b ≤ rank a)).Pairwise fun a b => rank b ≤ rank a :=
  (List.pairwise_mergeSort (rank_trans rank) (rank_total rank) l).imp of_decide_eq_true

/-- Sorting keeps the order of what has one score. -/
theorem filter_mergeSort (score : Rat) (l : List α) :
    (l.mergeSort fun a b => decide (rank b ≤ rank a)).filter (fun a => rank a == score) =
      l.filter fun a => rank a == score := by
  have hscore : ∀ a ∈ l.filter fun a => rank a == score, rank a = score := fun a ha =>
    beq_iff_eq.mp (List.mem_filter.mp ha).2
  have hties : (l.filter fun a => rank a == score).Pairwise fun a b => decide (rank b ≤ rank a) = true := by
    refine (List.pairwise_of_forall (R := fun _ _ => True) fun _ _ => trivial).imp_of_mem fun ha hb _ => ?_
    exact decide_eq_true (le_of_eq ((hscore _ hb).trans (hscore _ ha).symm))
  have hsub := (List.sublist_mergeSort (rank_trans rank) (rank_total rank) hties List.filter_sublist).filter
    fun a => rank a == score
  simp only [List.filter_filter, Bool.and_self] at hsub
  exact (hsub.eq_of_length ((List.mergeSort_perm l _).filter _).length_eq.symm).symm

end Sorting

/-! ### The completions of one score -/

/-- The completions of one score, in order. -/
def ofRank (score : Rat) (cs : List Completion) : List Completion := cs.filter fun c => c.rank == score

theorem mem_ofRank : a ∈ ofRank score cs ↔ a ∈ cs ∧ a.rank = score := by
  rw [ofRank, List.mem_filter, beq_iff_eq]

theorem ofRank_cons_self (h : a.rank = score) : ofRank score (a :: cs) = a :: ofRank score cs :=
  List.filter_cons_of_pos (beq_iff_eq.mpr h)

theorem ofRank_cons_of_ne (h : a.rank ≠ score) : ofRank score (a :: cs) = ofRank score cs :=
  List.filter_cons_of_neg fun heq => h (beq_iff_eq.mp heq)

theorem ofRank_append (score : Rat) (cs ds : List Completion) :
    ofRank score (cs ++ ds) = ofRank score cs ++ ofRank score ds := List.filter_append ..

theorem ofRank_filter (score : Rat) (p : Completion → Bool) (cs : List Completion) :
    ofRank score (cs.filter p) = (ofRank score cs).filter p := by
  rw [ofRank, ofRank, List.filter_filter, List.filter_filter]
  exact List.filter_congr fun c _ => Bool.and_comm _ _

/-! ### Rankings -/

/-- No completion stands before one of higher score. -/
def Descending (cs : List Completion) : Prop := cs.Pairwise fun a b => b.rank ≤ a.rank

theorem descending_ranked (cs : List Completion) : Descending (ranked cs) := mergeSort_descending _ cs

theorem ranked_perm (cs : List Completion) : (ranked cs).Perm cs := List.mergeSort_perm cs _

/-- Sorting keeps the order of the completions of one score. -/
theorem ofRank_ranked (score : Rat) (cs : List Completion) : ofRank score (ranked cs) = ofRank score cs :=
  filter_mergeSort _ score cs

/-- The first of a ranking has the highest score. -/
theorem Descending.rank_le (h : Descending (a :: cs)) (hb : b ∈ a :: cs) : b.rank ≤ a.rank := by
  rcases List.mem_cons.mp hb with rfl | hb
  · exact le_refl _
  · exact (List.pairwise_cons.mp h).1 b hb

theorem mem_of_ofRank (h : ∀ score, ofRank score cs = ofRank score ds) (ha : a ∈ cs) : a ∈ ds := by
  have hscore : a ∈ ofRank a.rank cs := mem_ofRank.mpr ⟨ha, rfl⟩
  rw [h] at hscore
  exact (mem_ofRank.mp hscore).1

/-- What a ranking holds of each score, in order, makes it up. -/
theorem eq_of_ofRank (hcs : Descending cs) (hds : Descending ds) (h : ∀ score, ofRank score cs = ofRank score ds) :
    cs = ds := by
  induction cs generalizing ds with
  | nil =>
    refine (List.eq_nil_iff_forall_not_mem.mpr fun a ha => ?_).symm
    exact List.not_mem_nil (mem_of_ofRank (fun score => (h score).symm) ha)
  | cons a cs ih =>
    cases ds with
    | nil => exact absurd (mem_of_ofRank h List.mem_cons_self) List.not_mem_nil
    | cons b ds =>
      -- both have the highest score there is, so both are the first of that score
      have hrank : b.rank = a.rank := by
        refine le_antisymm (hcs.rank_le ?_) (hds.rank_le (mem_of_ofRank h List.mem_cons_self))
        exact mem_of_ofRank (fun score => (h score).symm) List.mem_cons_self
      have hfirst := h a.rank
      rw [ofRank_cons_self rfl, ofRank_cons_self hrank] at hfirst
      obtain ⟨rfl, hrest⟩ := List.cons.inj hfirst
      refine congrArg (a :: ·) (ih (List.pairwise_cons.mp hcs).2 (List.pairwise_cons.mp hds).2 fun score => ?_)
      by_cases hscore : a.rank = score
      · exact hscore ▸ hrest
      · have hall := h score
        rwa [ofRank_cons_of_ne hscore, ofRank_cons_of_ne hscore] at hall

/-! ### Rankings within rankings -/

theorem dedup_ranked (cs : List Completion) : dedup (ranked (dedup cs)) = ranked (dedup cs) :=
  firstByKey_of_nodup (((ranked_perm _).map _).nodup_iff.mpr (nodup_map_firstByKey cs))

theorem mem_key_ranked_dedup {k : String × Position} :
    k ∈ (ranked (dedup cs)).map Completion.key ↔ k ∈ cs.map Completion.key :=
  ((ranked_perm _).map _).mem_iff.trans mem_map_firstByKey

/-- **A stretch that has been reduced and ranked** may stand for what it was, if the whole is. -/
theorem ranked_dedup_merged (xs ys zs : List Completion) :
    ranked (dedup (xs ++ ranked (dedup ys) ++ zs)) = ranked (dedup (xs ++ ys ++ zs)) := by
  have hkeys : ∀ k, k ∈ (xs ++ ranked (dedup ys)).map Completion.key ↔ k ∈ (xs ++ ys).map Completion.key := by
    intro k
    rw [List.map_append, List.map_append, List.mem_append, List.mem_append, mem_key_ranked_dedup]
  have happend : ∀ cs ds, dedup (cs ++ ds) =
      dedup cs ++ (dedup ds).filter fun c => !(cs.map Completion.key).contains c.key := firstByKey_append
  refine eq_of_ofRank (descending_ranked _) (descending_ranked _) fun score => ?_
  rw [ofRank_ranked, ofRank_ranked, happend, happend (xs ++ ys), filter_not_contains_congr hkeys, ofRank_append,
    ofRank_append, happend, happend xs, dedup_ranked, ofRank_append, ofRank_append, ofRank_filter, ofRank_ranked,
    ← ofRank_filter]

end Orchestra.Result
