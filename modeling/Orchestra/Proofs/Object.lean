import Mathlib.Data.List.Nodup
import Orchestra.Value

/-!
# Orchestra.Proofs.Object — mappings from names to values

A name keeps its place when it is put again, so that changes may be put over each other first (`overlay_overlay`).  What
an object has under a name after changes is what the changes have under it, if they name it at all (`get?_overlay`).
-/

namespace Orchestra.Object

variable {o d : Object} {m n : String} {v w : Value}

/-! ### Putting values under names -/

theorem put_cons_self (n : String) (w : Value) (d : Object) (v : Value) :
    put ((n, w) :: d) n v = (n, v) :: d := if_pos rfl

theorem put_cons_of_ne (h : m ≠ n) (w : Value) (d : Object) (v : Value) :
    put ((m, w) :: d) n v = (m, w) :: put d n v := if_neg h

theorem mem_keys_put : m ∈ keys (put o n v) ↔ m = n ∨ m ∈ keys o := by
  induction o with
  | nil => exact List.mem_singleton.trans (or_iff_left List.not_mem_nil).symm
  | cons e o ih =>
    obtain ⟨k, w⟩ := e
    by_cases hk : k = n
    · subst hk
      rw [put_cons_self]
      show m ∈ k :: keys o ↔ m = k ∨ m ∈ k :: keys o
      rw [List.mem_cons, ← or_assoc, or_self]
    · rw [put_cons_of_ne hk]
      show m ∈ k :: keys (put o n v) ↔ m = n ∨ m ∈ k :: keys o
      rw [List.mem_cons, List.mem_cons, ih, or_left_comm]

theorem put_put_self (o : Object) (n : String) (v w : Value) : (o.put n v).put n w = o.put n w := by
  induction o with
  | nil => exact if_pos rfl
  | cons e o ih =>
    obtain ⟨k, x⟩ := e
    by_cases hk : k = n
    · subst hk
      rw [put_cons_self, put_cons_self, put_cons_self]
    · rw [put_cons_of_ne hk, put_cons_of_ne hk, put_cons_of_ne hk, ih]

/-- A name that is there already keeps its place, so it does not matter what else is put before. -/
theorem put_comm (hn : n ∈ keys o) (h : m ≠ n) : (o.put m w).put n v = (o.put n v).put m w := by
  induction o with
  | nil => cases hn
  | cons e o ih =>
    obtain ⟨k, x⟩ := e
    by_cases hk : k = n
    · subst hk
      rw [put_cons_of_ne h.symm, put_cons_self, put_cons_self, put_cons_of_ne h.symm]
    · by_cases hkm : k = m
      · subst hkm
        rw [put_cons_self, put_cons_of_ne hk, put_cons_of_ne hk, put_cons_self]
      · have hn' : n ∈ keys o := (List.mem_cons.mp hn).resolve_left (Ne.symm hk)
        rw [put_cons_of_ne hkm, put_cons_of_ne hk, put_cons_of_ne hk, put_cons_of_ne hkm, ih hn']

theorem overlay_cons (o : Object) (e : String × Value) (d : Object) :
    o.overlay (e :: d) = (o.put e.1 e.2).overlay d := rfl

theorem overlay_append (o d e : Object) : o.overlay (d ++ e) = (o.overlay d).overlay e := List.foldl_append

/-- A name that is there already, and that no change names, may be put before the changes as well as after them. -/
theorem overlay_put_left (hn : n ∈ keys o) (hd : n ∉ keys d) : (o.overlay d).put n v = (o.put n v).overlay d := by
  induction d generalizing o with
  | nil => rfl
  | cons e d ih =>
    have hne : e.1 ≠ n := fun h => hd (h ▸ List.mem_cons_self)
    rw [overlay_cons, overlay_cons, ih (mem_keys_put.mpr (.inr hn)) fun h => hd (List.mem_cons_of_mem _ h),
      put_comm hn hne]

theorem overlay_put (hd : (keys d).Nodup) (o : Object) (n : String) (v : Value) :
    o.overlay (d.put n v) = (o.overlay d).put n v := by
  induction d generalizing o with
  | nil => rfl
  | cons e d ih =>
    obtain ⟨m, w⟩ := e
    have hnodup := List.nodup_cons.mp hd
    by_cases hm : m = n
    · subst hm
      rw [put_cons_self, overlay_cons, overlay_cons, overlay_put_left (mem_keys_put.mpr (.inl rfl)) hnodup.1,
        put_put_self]
    · rw [put_cons_of_ne hm, overlay_cons, overlay_cons, ih hnodup.2]

theorem nodup_keys_put (h : (keys o).Nodup) (n : String) (v : Value) : (keys (o.put n v)).Nodup := by
  induction o with
  | nil => exact List.nodup_singleton n
  | cons e o ih =>
    obtain ⟨k, w⟩ := e
    have hnodup := List.nodup_cons.mp h
    by_cases hk : k = n
    · subst hk
      rw [put_cons_self]
      exact h
    · rw [put_cons_of_ne hk]
      refine List.nodup_cons.mpr ⟨fun hmem => ?_, ih hnodup.2⟩
      exact (mem_keys_put.mp hmem).elim hk hnodup.1

/-- Changes may be put over each other first, and then over an object. -/
theorem overlay_overlay (o : Object) {d : Object} (hd : (keys d).Nodup) (e : Object) :
    o.overlay (d.overlay e) = (o.overlay d).overlay e := by
  induction e generalizing d with
  | nil => rfl
  | cons x e ih => rw [overlay_cons, overlay_cons, ih (nodup_keys_put hd _ _), overlay_put hd]

theorem put_of_notMem (h : n ∉ keys o) (v : Value) : o.put n v = o ++ [(n, v)] := by
  induction o with
  | nil => rfl
  | cons e o ih =>
    have hne : e.1 ≠ n := fun hn => h (hn ▸ List.mem_cons_self)
    rw [put_cons_of_ne hne, ih fun hmem => h (List.mem_cons_of_mem _ hmem), List.cons_append]

/-- Names that are new come after those that are there. -/
theorem overlay_of_nodup (h : (keys (o ++ d)).Nodup) : o.overlay d = o ++ d := by
  induction d generalizing o with
  | nil => exact (List.append_nil o).symm
  | cons e d ih =>
    have hnew : e.1 ∉ keys o := fun hmem => by
      rw [keys, List.map_append, List.nodup_append] at h
      exact h.2.2 _ hmem _ List.mem_cons_self rfl
    rw [List.append_cons] at h ⊢
    rw [overlay_cons, put_of_notMem hnew, ih h]

/-! ### Looking values up -/

@[simp] theorem get?_nil (n : String) : get? [] n = none := rfl

theorem get?_cons (e : String × Value) (o : Object) (n : String) :
    get? (e :: o) n = if e.1 = n then some e.2 else o.get? n := by
  obtain ⟨k, w⟩ := e
  show List.lookup n ((k, w) :: o) = if k = n then some w else o.get? n
  by_cases h : k = n
  · subst h
    rw [if_pos rfl, List.lookup_cons_self]
  · rw [if_neg h, List.lookup_cons, beq_false_of_ne (Ne.symm h)]
    rfl

theorem get?_eq_none : o.get? n = none ↔ n ∉ keys o := by
  induction o with
  | nil => simp [keys]
  | cons e o ih =>
    rw [get?_cons]
    show _ ↔ n ∉ e.1 :: keys o
    by_cases h : e.1 = n
    · simp [h]
    · simp [h, ih, Ne.symm h]

theorem get?_put (o : Object) (m : String) (v : Value) (n : String) :
    (o.put m v).get? n = if m = n then some v else o.get? n := by
  induction o with
  | nil => exact get?_cons (m, v) [] n
  | cons e o ih =>
    obtain ⟨k, w⟩ := e
    by_cases hk : k = m
    · subst hk
      rw [put_cons_self, get?_cons, get?_cons]
      split <;> rfl
    · rw [put_cons_of_ne hk, get?_cons, get?_cons, ih]
      by_cases hn : k = n
      · subst hn
        rw [if_pos rfl, if_neg (Ne.symm hk), if_pos rfl]
      · rw [if_neg hn, if_neg hn]

/-- A mapping put over an object has the say on every name that it has. -/
theorem get?_overlay (hd : (keys d).Nodup) (o : Object) (n : String) :
    (o.overlay d).get? n = (d.get? n).or (o.get? n) := by
  induction d generalizing o with
  | nil => rfl
  | cons e d ih =>
    have hnodup := List.nodup_cons.mp hd
    rw [overlay_cons, ih hnodup.2, get?_put, get?_cons]
    by_cases h : e.1 = n
    · have hnone : get? d n = none := get?_eq_none.mpr (h ▸ hnodup.1)
      rw [if_pos h, if_pos h, hnone, Option.none_or, Option.some_or]
    · rw [if_neg h, if_neg h]

theorem nodup_keys_overlay (ho : (keys o).Nodup) (d : Object) : (keys (o.overlay d)).Nodup := by
  induction d generalizing o with
  | nil => exact ho
  | cons e d ih => exact ih (nodup_keys_put ho _ _)

end Orchestra.Object
