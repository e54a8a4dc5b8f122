import Mathlib.Data.List.Nodup
import Orchestra.Proofs.Context.Overlay
import Orchestra.Proofs.Object

/-!
# Orchestra.Proofs.Context.Action — changes act on contexts

Changes to different facets commute and the later of two changes to one facet wins, so applying one mapping after the
other is applying their update (`foldl_update`).  A context acts by its set facets, and so does what comes of it
(`under_under`).
-/

namespace Orchestra

/-- The facets by name. -/
def facetNames : List String :=
  ["workspace", "file", "selection", "language", "framework", "project_type", "user_preferences"]

namespace Changes

/-- Changes as a mapping holds them: every name once, and what counts as unknown is the name of no facet. -/
structure Mapping (d : Changes) : Prop where
  nodup : d.names.Nodup
  unknown : ∀ n, Change.unknown n ∈ d → n ∉ facetNames

variable {d e : Changes} {b : Change}

theorem names_cons (b : Change) (d : Changes) : names (b :: d) = b.name :: names d := rfl

theorem mem_names (h : b ∈ d) : b.name ∈ d.names := List.mem_map_of_mem h

theorem Mapping.isKnown_iff (h : d.Mapping) (hb : b ∈ d) : b.isKnown = true ↔ b.name ∈ facetNames := by
  cases b with
  | unknown n => exact iff_of_false Bool.false_ne_true (h.unknown n hb)
  | _ => exact iff_of_true rfl (by simp [facetNames, Change.name])

theorem Mapping.unknownNames (h : d.Mapping) : d.unknownNames = d.names.filter fun n => n ∉ facetNames := by
  rw [Changes.unknownNames, names, names, List.filter_map]
  refine congrArg (List.map Change.name) (List.filter_congr fun _ hb => ?_)
  rw [Bool.eq_iff_iff, Bool.not_eq_true', ← Bool.not_eq_true, h.isKnown_iff hb]
  exact decide_eq_true_iff.symm

/-- Every name is that of a facet. -/
def NamesFacets (d : Changes) : Prop := ∀ n ∈ d.names, n ∈ facetNames

theorem Mapping.known (h : d.Mapping) (hd : d.NamesFacets) : ∀ b ∈ d, b.isKnown = true :=
  fun _ hb => (h.isKnown_iff hb).mpr (hd _ (mem_names hb))

theorem unknownNames_eq_nil : d.unknownNames = [] ↔ ∀ b ∈ d, b.isKnown = true := by
  simp [unknownNames, names]

/-! ### Updates of mappings -/

theorem put_cons_of_eq {a : Change} (h : a.name = b.name) (d : Changes) : put (a :: d) b = b :: d := if_pos h

theorem put_cons_of_ne {a : Change} (h : a.name ≠ b.name) (d : Changes) : put (a :: d) b = a :: put d b := if_neg h

theorem mem_put {a : Change} (h : a ∈ d.put b) : a = b ∨ a ∈ d := by
  induction d with
  | nil => exact .inl (List.mem_singleton.mp h)
  | cons c d ih =>
    by_cases hc : c.name = b.name
    · rw [put_cons_of_eq hc] at h
      exact (List.mem_cons.mp h).imp_right (List.mem_cons_of_mem c)
    · rw [put_cons_of_ne hc] at h
      rcases List.mem_cons.mp h with rfl | h
      · exact .inr List.mem_cons_self
      · exact (ih h).imp_right (List.mem_cons_of_mem c)

theorem mem_names_put {n : String} (h : n ∈ (d.put b).names) : n = b.name ∨ n ∈ d.names := by
  obtain ⟨a, ha, rfl⟩ := List.mem_map.mp h
  exact (mem_put ha).imp (congrArg Change.name) mem_names

theorem nodup_names_put (h : d.names.Nodup) (b : Change) : (d.put b).names.Nodup := by
  induction d with
  | nil => exact List.nodup_singleton _
  | cons a d ih =>
    have hnodup := List.nodup_cons.mp h
    by_cases ha : a.name = b.name
    · rw [put_cons_of_eq ha, names_cons, ← ha]
      exact h
    · rw [put_cons_of_ne ha, names_cons]
      exact List.nodup_cons.mpr ⟨fun hmem => (mem_names_put hmem).elim ha hnodup.1, ih hnodup.2⟩

theorem mem_update {a : Change} (h : a ∈ d.update e) : a ∈ d ∨ a ∈ e := by
  induction e generalizing d with
  | nil => exact .inl h
  | cons b e ih =>
    rcases ih (d := d.put b) h with h | h
    · rcases mem_put h with rfl | h
      · exact .inr List.mem_cons_self
      · exact .inl h
    · exact .inr (List.mem_cons_of_mem b h)

theorem nodup_names_update (h : d.names.Nodup) (e : Changes) : (d.update e).names.Nodup := by
  induction e generalizing d with
  | nil => exact h
  | cons b e ih => exact ih (nodup_names_put h b)

/-- An update of mappings is a mapping. -/
theorem Mapping.update (hd : d.Mapping) (he : e.Mapping) : (d.update e).Mapping :=
  ⟨nodup_names_update hd.nodup e, fun n hn => (mem_update hn).elim (hd.unknown n) (he.unknown n)⟩

end Changes

namespace Context

/-! ### One change after the other -/

variable {a b : Change} {d d₁ d₂ : Changes} {c e : Context}

/-- Changes to different facets commute. -/
theorem apply_comm (h : a.name ≠ b.name) (c : Context) : (c.apply a).apply b = (c.apply b).apply a := by
  cases a <;> cases b <;> first | rfl | exact absurd rfl h

/-- The later change to a facet wins. -/
theorem apply_apply (h : a.name = b.name) (hb : b.isKnown = true) (c : Context) :
    (c.apply a).apply b = c.apply b := by
  cases b with
  | unknown n => cases hb
  | _ => cases a <;> first | rfl | (simp [Change.name] at h)

/-- A change to a facet that no other change names may come before them as well as after. -/
theorem foldl_apply_comm (h : b.name ∉ d.names) (c : Context) :
    d.foldl apply (c.apply b) = (d.foldl apply c).apply b := by
  induction d generalizing c with
  | nil => rfl
  | cons a d ih =>
    rw [Changes.names_cons, List.mem_cons, not_or] at h
    rw [List.foldl_cons, List.foldl_cons, apply_comm h.1, ih h.2]

theorem foldl_comm (h : ∀ n ∈ d₁.names, n ∉ d₂.names) (c : Context) :
    d₂.foldl apply (d₁.foldl apply c) = d₁.foldl apply (d₂.foldl apply c) := by
  induction d₁ generalizing c with
  | nil => rfl
  | cons b d₁ ih =>
    have hb : b.name ∉ d₂.names := h _ (Changes.mem_names List.mem_cons_self)
    have hrest : ∀ n ∈ Changes.names d₁, n ∉ d₂.names := fun n hn => h n (List.mem_cons_of_mem _ hn)
    rw [List.foldl_cons, ih hrest, foldl_apply_comm hb, List.foldl_cons]

theorem foldl_put (hd : d.names.Nodup) (hb : b.isKnown = true) (c : Context) :
    (d.put b).foldl apply c = (d.foldl apply c).apply b := by
  induction d generalizing c with
  | nil => rfl
  | cons a d ih =>
    have hnodup := List.nodup_cons.mp hd
    by_cases ha : a.name = b.name
    · rw [Changes.put_cons_of_eq ha, List.foldl_cons, List.foldl_cons, ← foldl_apply_comm (ha ▸ hnodup.1),
        apply_apply ha hb]
    · rw [Changes.put_cons_of_ne ha, List.foldl_cons, List.foldl_cons, ih hnodup.2]

/-- **One mapping after the other** is their update. -/
theorem foldl_update (hd : d₁.names.Nodup) (hknown : ∀ b ∈ d₂, b.isKnown = true) (c : Context) :
    (d₁.update d₂).foldl apply c = d₂.foldl apply (d₁.foldl apply c) := by
  induction d₂ generalizing d₁ with
  | nil => rfl
  | cons b d₂ ih =>
    obtain ⟨hb, hrest⟩ := List.forall_mem_cons.mp hknown
    rw [List.foldl_cons, ← foldl_put hd hb, ← ih (Changes.nodup_names_put hd b) hrest]
    rfl

theorem foldl_foldl (hd : d.names.Nodup) (hknown : ∀ b ∈ d, b.isKnown = true) (c : Context) :
    d.foldl apply (d.foldl apply c) = d.foldl apply c := by
  induction d generalizing c with
  | nil => rfl
  | cons b d ih =>
    have hnodup := List.nodup_cons.mp hd
    obtain ⟨hb, hrest⟩ := List.forall_mem_cons.mp hknown
    rw [List.foldl_cons, List.foldl_cons, ← foldl_apply_comm hnodup.1, apply_apply rfl hb, ih hnodup.2 hrest]

/-! ### Mappings -/

theorem overlay_known (h : ∀ b ∈ d, b.isKnown = true) (c : Context) : c.overlay d = .ok (d.foldl apply c) := by
  rw [overlay, Changes.unknownNames_eq_nil.mpr h]

/-- **A mapping that names something else** is refused for just these names, reported in ascending order. -/
theorem overlay_refused (hd : d.Mapping) (h : ¬d.NamesFacets) (c : Context) :
    ∃ fields, c.overlay d = .error (.unknownFields fields) ∧ fields.Pairwise (· < ·) ∧
      ∀ n, n ∈ fields ↔ n ∈ d.names ∧ n ∉ facetNames := by
  have hunknown : d.unknownNames ≠ [] := by
    rw [hd.unknownNames]
    simpa [Changes.NamesFacets] using h
  let fields := d.unknownNames.mergeSort fun a b => decide (a ≤ b)
  have hperm : fields.Perm d.unknownNames := List.mergeSort_perm _ _
  have hsorted : fields.Pairwise fun a b => decide (a ≤ b) = true := by
    refine List.pairwise_mergeSort (fun _ _ _ hab hbc => decide_eq_true ?_) (fun a b => ?_) _
    · exact String.le_trans (of_decide_eq_true hab) (of_decide_eq_true hbc)
    · simpa only [Bool.or_eq_true, decide_eq_true_eq] using String.le_total a b
  have hnodup : fields.Nodup := by
    rw [hperm.nodup_iff, hd.unknownNames]
    exact hd.nodup.filter _
  refine ⟨fields, overlay_unknown hunknown, ?_, fun n => ?_⟩
  · refine hsorted.imp₂ (fun a b hle hne => ?_) hnodup
    exact String.not_le.mp fun hge => hne (String.le_antisymm (of_decide_eq_true hle) hge)
  · rw [hperm.mem_iff, hd.unknownNames]
    simp

/-! ### Contexts as changes -/

theorem empty_under (c : Context) : empty.under (.context c) = c := by
  simp [under, empty]

theorem under_under (c e f : Context) :
    (c.under (.context e)).under (.context f) = c.under (.context (e.under (.context f))) := by
  simp [under, Option.or_assoc]

theorem isEmpty_iff (c : Context) : c.isEmpty = true ↔ c.facets = [] := by
  simp [isEmpty, facets, and_assoc]

theorem copy_eq (h : ∀ o, c.preferences = some o → (Object.keys o).Nodup) : c.copy = c := by
  obtain ⟨workspace, file, selection, language, framework, projectType, preferences⟩ := c
  cases preferences with
  | none => rfl
  | some o =>
    have hself : Object.overlay [] o = o := Object.overlay_of_nodup (o := []) (h o rfl)
    show Context.mk _ _ _ _ _ _ (some (Object.overlay [] o)) = _
    rw [hself]

/-- **Mappings act on contexts**, and so do contexts, by their set facets.  A mapping that names facets only is applied;
one that names something else is refused for just these names, in ascending order.  Of mappings of facets, one applied
after another is their update, one applied again changes nothing, and two with no facet in common commute.  A context
over another has its own facets where they are set and the other's elsewhere, so contexts over contexts are associative
with the empty context as identity.  A copy equals its original, where preferences have no name twice. -/
theorem overlay_acts (c : Context) :
    (∀ d : Changes, d.Mapping →
      (d.NamesFacets → ∃ c', c.overlay d = .ok c') ∧
      (¬d.NamesFacets → ∃ fields, c.overlay d = .error (.unknownFields fields) ∧ fields.Pairwise (· < ·) ∧
        ∀ n, n ∈ fields ↔ n ∈ d.names ∧ n ∉ facetNames)) ∧
    (∀ d₁ d₂ : Changes, d₁.Mapping → d₂.Mapping → d₁.NamesFacets → d₂.NamesFacets →
      (d₁.update d₂).Mapping ∧ (c.overlay d₁ >>= (·.overlay d₂)) = c.overlay (d₁.update d₂) ∧
      (c.overlay d₁ >>= (·.overlay d₁)) = c.overlay d₁ ∧
      ((∀ n ∈ d₁.names, n ∉ d₂.names) →
        (c.overlay d₁ >>= (·.overlay d₂)) = (c.overlay d₂ >>= (·.overlay d₁)))) ∧
    c.overlay [] = .ok c ∧ empty.overlay c.facets = .ok c ∧ c.overlay empty.facets = .ok c ∧
    (∀ e : Context,
      c.overlay e.facets = .ok {
        workspace := e.workspace.or c.workspace
        file := e.file.or c.file
        selection := e.selection.or c.selection
        language := e.language.or c.language
        framework := e.framework.or c.framework
        projectType := e.projectType.or c.projectType
        preferences := e.preferences.or c.preferences } ∧
      ∀ f : Context, (c.overlay e.facets >>= (·.overlay f.facets)) =
        (e.overlay f.facets >>= fun ef => c.overlay ef.facets)) ∧
    ((∀ o, c.preferences = some o → (Object.keys o).Nodup) → c.copy = c) ∧ (c.isEmpty = true ↔ c.facets = []) := by
  refine ⟨fun d hd => ⟨fun h => ⟨_, overlay_known (hd.known h) c⟩, fun h => overlay_refused hd h c⟩,
    fun d₁ d₂ hd₁ hd₂ hn₁ hn₂ => ?_, rfl, ?_, ?_, fun e => ⟨overlay_facets c e, fun f => ?_⟩, copy_eq, isEmpty_iff c⟩
  · have hknown₁ := hd₁.known hn₁
    have hknown₂ := hd₂.known hn₂
    have hknown : ∀ b ∈ d₁.update d₂, b.isKnown = true := fun b hb =>
      (Changes.mem_update hb).elim (hknown₁ b) (hknown₂ b)
    simp only [overlay_known hknown₁, overlay_known hknown₂, overlay_known hknown, bind, Except.bind]
    refine ⟨hd₁.update hd₂, ?_, ?_, fun hdisjoint => ?_⟩
    · rw [foldl_update hd₁.nodup hknown₂]
    · rw [foldl_foldl hd₁.nodup hknown₁]
    · rw [foldl_comm hdisjoint]
  · rw [overlay_facets, empty_under]
  · rfl
  · simp only [overlay_facets, bind, Except.bind, under_under]

/-- One mapping clears a facet that the other sets; a third has two unknown names besides a facet. -/
theorem overlay_acts_clearing :
    let c : Context := { framework := some "y", preferences := some [("tabs", .bool true), ("width", .null)] }
    let d₁ : Changes := [.language (some "py"), .framework none]
    let d₂ : Changes := [.preferences none, .framework (some "x")]
    let d₃ : Changes := [.unknown "langauge", .language none, .unknown "colour"]
    (∀ o, c.preferences = some o → (Object.keys o).Nodup) ∧ d₁.Mapping ∧ d₂.Mapping ∧ d₃.Mapping ∧
      d₁.NamesFacets ∧ d₂.NamesFacets ∧ ¬d₃.NamesFacets ∧
      (c.overlay d₁ >>= (·.overlay d₂)) = c.overlay (d₁.update d₂) ∧
      c.overlay (d₁.update d₂) = .ok { language := some "py", framework := some "x" } ∧
      (∃ fields, c.overlay d₃ = .error (.unknownFields fields) ∧ fields.Pairwise (· < ·) ∧
        ∀ n, n ∈ fields ↔ n ∈ d₃.names ∧ n ∉ facetNames) ∧
      c.copy = c := by
  intro c d₁ d₂ d₃
  have hc : ∀ o, c.preferences = some o → (Object.keys o).Nodup := by
    rintro o ⟨⟩
    decide
  have h₁ : d₁.Mapping := ⟨by decide, by simp [d₁]⟩
  have h₂ : d₂.Mapping := ⟨by decide, by simp [d₂]⟩
  have h₃ : d₃.Mapping := ⟨by decide, by simp [d₃, facetNames]⟩
  have hn₁ : d₁.NamesFacets := by unfold Changes.NamesFacets; decide
  have hn₂ : d₂.NamesFacets := by unfold Changes.NamesFacets; decide
  have hn₃ : ¬d₃.NamesFacets := by unfold Changes.NamesFacets; decide
  obtain ⟨hrefuses, hacts, -, -, -, -, hcopy, -⟩ := overlay_acts c
  exact ⟨hc, h₁, h₂, h₃, hn₁, hn₂, hn₃, (hacts d₁ d₂ h₁ h₂ hn₁ hn₂).2.1, rfl, (hrefuses d₃ h₃).2 hn₃, hcopy hc⟩

end Context

end Orchestra
