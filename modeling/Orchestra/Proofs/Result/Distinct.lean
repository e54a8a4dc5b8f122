import Mathlib.Data.List.Nodup
import Orchestra.Result.Merge

/-!
# Orchestra.Proofs.Result.Distinct — the first of each key

What was seen before acts as a filter (`firstByKey_eq_filter`), so the first of each key in two lists one after the other
are those of the first list and, of the second, those with a key that is not in the first (`firstByKey_append`).
-/

namespace Orchestra.Result

section Equations

variable {α β : Type} [BEq β] {key : α → β}

theorem firstByKey_nil (seen : List β) : firstByKey key seen [] = [] := rfl

theorem firstByKey_cons (seen : List β) (a : α) (l : List α) :
    firstByKey key seen (a :: l) =
      if seen.contains (key a) then firstByKey key seen l else a :: firstByKey key (key a :: seen) l := rfl

end Equations

variable {α β : Type} [BEq β] [LawfulBEq β] {key : α → β} {k : β} {l xs ys : List α}

theorem firstByKey_eq_filter (seen : List β) (l : List α) :
    firstByKey key seen l = (firstByKey key [] l).filter fun a => !seen.contains (key a) := by
  induction l generalizing seen with
  | nil => rfl
  | cons a l ih =>
    rw [firstByKey_cons, firstByKey_cons, List.contains_nil, if_neg Bool.false_ne_true, ih [key a], List.filter_cons,
      List.filter_filter]
    split
    · next hseen =>
      -- a key that was not seen differs from the one of `a`, which was
      rw [ih seen, hseen, Bool.not_true, if_neg Bool.false_ne_true]
      refine List.filter_congr fun b _ => ?_
      by_cases hkey : key b = key a
      · simp [hkey, List.contains_iff_mem.mp hseen]
      · simp [hkey]
    · next hseen =>
      rw [ih (key a :: seen), Bool.eq_false_iff.mpr hseen, Bool.not_false, if_pos rfl]
      refine congrArg (a :: ·) (List.filter_congr fun b _ => ?_)
      by_cases hkey : key b = key a <;> simp [hkey]

theorem firstByKey_cons_nil (a : α) (l : List α) :
    firstByKey key [] (a :: l) = a :: (firstByKey key [] l).filter fun b => key b != key a := by
  rw [firstByKey_cons, List.contains_nil, if_neg Bool.false_ne_true, firstByKey_eq_filter]
  refine congrArg (a :: ·) (List.filter_congr fun b _ => ?_)
  by_cases hkey : key b = key a <;> simp [hkey]

/-- No key is lost, and none is added. -/
@[simp] theorem mem_map_firstByKey : k ∈ (firstByKey key [] l).map key ↔ k ∈ l.map key := by
  induction l with
  | nil => rfl
  | cons a l ih =>
    rw [firstByKey_cons_nil, List.map_cons, List.map_cons, List.mem_cons, List.mem_cons, ← ih]
    simp only [List.mem_map, List.mem_filter, bne_iff_ne]
    constructor
    · rintro (rfl | ⟨b, ⟨hb, -⟩, rfl⟩)
      · exact .inl rfl
      · exact .inr ⟨b, hb, rfl⟩
    · rintro (rfl | ⟨b, hb, rfl⟩)
      · exact .inl rfl
      · by_cases hkey : key b = key a
        · exact .inl hkey
        · exact .inr ⟨b, ⟨hb, hkey⟩, rfl⟩

theorem nodup_map_firstByKey (l : List α) : ((firstByKey key [] l).map key).Nodup := by
  induction l with
  | nil => exact .nil
  | cons a l ih =>
    rw [firstByKey_cons_nil, List.map_cons, List.nodup_cons]
    refine ⟨?_, ih.sublist (List.filter_sublist.map key)⟩
    simp only [List.mem_map, List.mem_filter, bne_iff_ne]
    rintro ⟨b, ⟨-, hne⟩, heq⟩
    exact hne heq

/-- Where every key is there once, all stay. -/
theorem firstByKey_of_nodup (h : (l.map key).Nodup) : firstByKey key [] l = l := by
  induction l with
  | nil => rfl
  | cons a l ih =>
    rw [List.map_cons, List.nodup_cons] at h
    rw [firstByKey_cons_nil, ih h.2]
    refine congrArg (a :: ·) (List.filter_eq_self.mpr fun b hb => bne_iff_ne.mpr fun hkey => h.1 ?_)
    exact List.mem_map.mpr ⟨b, hb, hkey⟩

theorem firstByKey_append (xs ys : List α) :
    firstByKey key [] (xs ++ ys) =
      firstByKey key [] xs ++ (firstByKey key [] ys).filter fun a => !(xs.map key).contains (key a) := by
  induction xs with
  | nil => simp [firstByKey_nil]
  | cons a xs ih =>
    rw [List.cons_append, firstByKey_cons_nil, firstByKey_cons_nil, ih, List.filter_append, List.filter_filter,
      List.cons_append]
    refine congrArg (fun l => a :: (_ ++ l)) (List.filter_congr fun b _ => ?_)
    rw [List.map_cons, List.contains_cons, Bool.not_or]
    rfl

theorem firstByKey_concat [DecidableEq β] (xs : List α) (a : α) :
    firstByKey key [] (xs ++ [a]) = firstByKey key [] xs ++ if key a ∈ xs.map key then [] else [a] := by
  rw [firstByKey_append, firstByKey_cons_nil, firstByKey_nil, List.filter_nil, List.filter_singleton]
  by_cases h : key a ∈ xs.map key
  · rw [if_pos h, List.contains_iff_mem.mpr h]
    rfl
  · rw [if_neg h, Bool.eq_false_iff.mpr (mt List.contains_iff_mem.mp h)]
    rfl

/-- Nothing changes for what comes after a list if its keys come from another list. -/
theorem filter_not_contains_congr (h : ∀ k, k ∈ xs.map key ↔ k ∈ ys.map key) (l : List α) :
    (l.filter fun a => !(xs.map key).contains (key a)) = l.filter fun a => !(ys.map key).contains (key a) := by
  refine List.filter_congr fun a _ => congrArg Bool.not ?_
  rw [Bool.eq_iff_iff, List.contains_iff_mem, List.contains_iff_mem]
  exact h (key a)

/-- A stretch that has been reduced already may stand for what it was. -/
theorem firstByKey_reduced (xs ys zs : List α) :
    firstByKey key [] (xs ++ firstByKey key [] ys ++ zs) = firstByKey key [] (xs ++ ys ++ zs) := by
  have hself : firstByKey key [] (firstByKey key [] ys) = firstByKey key [] ys :=
    firstByKey_of_nodup (nodup_map_firstByKey ys)
  have hkeys : ∀ k, k ∈ (xs ++ firstByKey key [] ys).map key ↔ k ∈ (xs ++ ys).map key := by
    intro k
    rw [List.map_append, List.map_append, List.mem_append, List.mem_append, mem_map_firstByKey]
  rw [firstByKey_append, firstByKey_append xs, hself, ← firstByKey_append, filter_not_contains_congr hkeys,
    ← firstByKey_append]

end Orchestra.Result
