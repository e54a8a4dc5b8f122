import Orchestra.Context.Store

/-!
# Orchestra.Proofs.Context.Overlay — a context under extras

A change sets its facet to whatever it holds, so that one without a content clears it.  A context that is given as extras
counts by its set facets only (`Context.overlay_extras`).
-/

namespace Orchestra

namespace Context

variable {c : Context}

/-- The context under extras: changes apply one after the other, and what a context leaves open stays as it is. -/
def under (c : Context) : Extras → Context
  | .nothing => c
  | .changes d => d.foldl apply c
  | .context e => {
      workspace := e.workspace.or c.workspace
      file := e.file.or c.file
      selection := e.selection.or c.selection
      language := e.language.or c.language
      framework := e.framework.or c.framework
      projectType := e.projectType.or c.projectType
      preferences := e.preferences.or c.preferences }

/-- What a context stands for as changes names nothing but facets. -/
theorem facets_known (e : Context) : e.facets.unknownNames = [] := by
  have hknown : ∀ c ∈ e.facets, c.isKnown = true := by
    simp [facets, or_imp, forall_and, Change.isKnown]
  rw [Changes.unknownNames, List.filter_eq_nil_iff.mpr fun c hc => by simp [hknown c hc]]
  rfl

theorem foldl_facets (c e : Context) : e.facets.foldl apply c = c.under (.context e) := by
  obtain ⟨workspace, file, selection, language, framework, projectType, preferences⟩ := e
  cases workspace <;> cases file <;> cases selection <;> cases language <;> cases framework <;> cases projectType <;>
    cases preferences <;> rfl

/-- Changes that name something else are refused, and the names are reported. -/
theorem overlay_unknown {d : Changes} (h : d.unknownNames ≠ []) :
    c.overlay d = .error (Fault.ofUnknownFields d.unknownNames) := by
  unfold overlay
  split
  · exact absurd ‹_› h
  · rfl

theorem overlay_extras {extras : Extras} (h : extras.toChanges.unknownNames = []) :
    c.overlay extras.toChanges = .ok (c.under extras) := by
  have hfold : extras.toChanges.foldl apply c = c.under extras := by
    cases extras with
    | nothing | changes d => rfl
    | context e => exact foldl_facets c e
  rw [overlay, h, hfold]

/-- Every context can be given as extras. -/
theorem overlay_facets (c e : Context) : c.overlay e.facets = .ok (c.under (.context e)) :=
  have hknown : (Extras.context e).toChanges.unknownNames = [] := e.facets_known
  overlay_extras hknown

end Context

end Orchestra
