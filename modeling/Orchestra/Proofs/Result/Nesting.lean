import Orchestra.Proofs.Object
import Orchestra.Proofs.Result.Ranking

/-!
# Orchestra.Proofs.Result.Nesting — merging in groups is merging at once

A result that has been merged before may stand for what it was merged from, anywhere in a list of results
(`merge_merged`), to the last detail: even the names in metadata keep their order.  Every other law of nested merging
follows from this one.
-/

namespace Orchestra

namespace Result

/-! ### Metadata -/

theorem mergeMetadata_append (ms ns : List (Option Object)) :
    mergeMetadata (ms ++ ns) = ns.foldl (fun o m => Object.overlay o (m.getD [])) (mergeMetadata ms) :=
  List.foldl_append

/-- Overlaying metadata one by one is overlaying all their entries. -/
theorem foldl_overlay (ms : List (Option Object)) (o : Object) :
    ms.foldl (fun o m => Object.overlay o (m.getD [])) o = o.overlay (ms.flatMap (·.getD [])) := by
  induction ms generalizing o with
  | nil => rfl
  | cons m ms ih => rw [List.foldl_cons, ih, List.flatMap_cons, Object.overlay_append]

theorem mergeMetadata_merged (xs ys zs : List (Option Object)) :
    mergeMetadata (xs ++ some (mergeMetadata ys) :: zs) = mergeMetadata (xs ++ ys ++ zs) := by
  have hone : ∀ o : Object, o.overlay (mergeMetadata ys) = o.overlay (ys.flatMap (·.getD [])) := by
    intro o
    rw [mergeMetadata, foldl_overlay, Object.overlay_overlay o (d := []) .nil]
    rfl
  rw [mergeMetadata_append, mergeMetadata_append (xs ++ ys), mergeMetadata_append xs, List.foldl_cons, foldl_overlay ys,
    Option.getD_some, hone]

/-! ### Texts -/

/-- The texts that are there and not empty. -/
def text? : Option String → Option String := Option.filter (· != "")

/-- The first text is taken again, and no text is taken for none. -/
theorem text?_firstText (texts : List (Option String)) : text? (some (firstText texts)) = texts.findSome? text? := by
  cases htext : texts.findSome? text? with
  | none =>
    have hnone : firstText texts = "" := congrArg (Option.getD · "") htext
    rw [hnone]
    rfl
  | some t =>
    have hsome : firstText texts = t := congrArg (Option.getD · "") htext
    obtain ⟨text, -, ht⟩ := List.exists_of_findSome?_eq_some htext
    rw [hsome]
    exact Option.filter_eq_some_iff.mpr ⟨rfl, (Option.filter_eq_some_iff.mp ht).2⟩

theorem firstText_merged (xs ys zs : List (Option String)) :
    firstText (xs ++ some (firstText ys) :: zs) = firstText (xs ++ ys ++ zs) := by
  refine congrArg (Option.getD · "") ?_
  show (xs ++ some (firstText ys) :: zs).findSome? text? = (xs ++ ys ++ zs).findSome? text?
  rw [List.append_cons, List.findSome?_append, List.findSome?_append, List.findSome?_append, List.findSome?_append,
    List.findSome?_singleton, text?_firstText]

/-! ### Results of one kind -/

theorem mergeCompletions_merged (xs ys zs : List CompletionResult) :
    mergeCompletions (xs ++ mergeCompletions ys :: zs) = mergeCompletions (xs ++ ys ++ zs) := by
  simp only [mergeCompletions, List.flatMap_append, List.flatMap_cons, List.map_append, List.map_cons,
    ← List.append_assoc, ranked_dedup_merged, mergeMetadata_merged]

theorem mergeChat_merged (xs ys zs : List ChatResponse) :
    mergeChat (xs ++ mergeChat ys :: zs) = mergeChat (xs ++ ys ++ zs) := by
  simp only [mergeChat, List.flatMap_append, List.flatMap_cons, List.map_append, List.map_cons, ← List.append_assoc,
    firstByKey_reduced, firstText_merged, mergeMetadata_merged]

theorem mergeEdits_merged (xs ys zs : List CodeEditResult) :
    mergeEdits (xs ++ mergeEdits ys :: zs) = mergeEdits (xs ++ ys ++ zs) := by
  simp only [mergeEdits, List.flatMap_append, List.flatMap_cons, List.map_append, List.map_cons, ← List.append_assoc,
    firstText_merged, mergeMetadata_merged]

/-! ### Results of any kind -/

variable {kind : Capability} {m : Result} {rs xs ys zs : List Result}

theorem exists_merge (hk : kind.fansOut = true) (rs : List Result) : ∃ m, merge kind rs = .ok m := by
  cases kind with
  | codeCompletion => exact ⟨_, rfl⟩
  | chat => exact ⟨_, rfl⟩
  | codeEdit => exact ⟨_, rfl⟩
  | _ => cases hk

/-- **A merged result** may stand for what it was merged from. -/
theorem merge_merged (h : merge kind ys = .ok m) (xs zs : List Result) :
    merge kind (xs ++ m :: zs) = merge kind (xs ++ ys ++ zs) := by
  cases kind with
  | codeCompletion =>
    cases h
    simp only [merge, List.filterMap_append, List.filterMap_cons, completions?, mergeCompletions_merged]
  | chat =>
    cases h
    simp only [merge, List.filterMap_append, List.filterMap_cons, chat?, mergeChat_merged]
  | codeEdit =>
    cases h
    simp only [merge, List.filterMap_append, List.filterMap_cons, edits?, mergeEdits_merged]
  | _ => cases h

/-- So every group may be merged first. -/
theorem merge_groups {groups : List (List Result)} {merged : List Result} (xs : List Result)
    (h : groups.mapM (merge kind) = .ok merged) : merge kind (xs ++ merged) = merge kind (xs ++ groups.flatten) := by
  induction groups generalizing xs merged with
  | nil => cases h; rfl
  | cons group groups ih =>
    rw [List.mapM_cons] at h
    cases hm : merge kind group with
    | error f => rw [hm] at h; cases h
    | ok m =>
      cases hrest : groups.mapM (merge kind) with
      | error f => rw [hm, hrest] at h; cases h
      | ok rest =>
        rw [hm, hrest] at h
        cases h
        rw [merge_merged hm, List.append_assoc, ← List.append_assoc, ih _ hrest, List.flatten_cons, List.append_assoc]

theorem exists_mapM_merge (hk : kind.fansOut = true) (groups : List (List Result)) :
    ∃ merged, groups.mapM (merge kind) = .ok merged := by
  induction groups with
  | nil => exact ⟨[], rfl⟩
  | cons group groups ih =>
    obtain ⟨m, hm⟩ := exists_merge hk group
    obtain ⟨merged, hmerged⟩ := ih
    exact ⟨m :: merged, by rw [List.mapM_cons, hm, hmerged]; rfl⟩

/-! ### Results with nothing in them -/

/-- Nothing is in the result: its fields are empty, or not there at all. -/
def HoldsNothing : Result → Prop
  | completions r => r.completions = [] ∧ r.metadata.getD [] = []
  | chat r => r.message.getD "" = "" ∧ r.codeBlocks = [] ∧ r.suggestions = [] ∧ r.metadata.getD [] = []
  | edits r => r.edits = [] ∧ r.explanation.getD "" = "" ∧ r.metadata.getD [] = []

theorem mergeMetadata_nothing {m : Option Object} (h : m.getD [] = []) (xs ys : List (Option Object)) :
    mergeMetadata (xs ++ m :: ys) = mergeMetadata (xs ++ ys) := by
  rw [mergeMetadata_append, mergeMetadata_append, List.foldl_cons, h]
  rfl

theorem firstText_nothing {text : Option String} (h : text.getD "" = "") (xs ys : List (Option String)) :
    firstText (xs ++ text :: ys) = firstText (xs ++ ys) := by
  have hnone : text? text = none := by
    cases text with
    | none => rfl
    | some t =>
      have ht : t = "" := h
      rw [ht]
      rfl
  refine congrArg (Option.getD · "") ?_
  show (xs ++ text :: ys).findSome? text? = (xs ++ ys).findSome? text?
  rw [List.findSome?_append, List.findSome?_append, List.findSome?_cons, hnone]

theorem mergeCompletions_nothing {r : CompletionResult} (h : (completions r).HoldsNothing)
    (xs ys : List CompletionResult) : mergeCompletions (xs ++ r :: ys) = mergeCompletions (xs ++ ys) := by
  obtain ⟨hcompletions, hmetadata⟩ := h
  simp [mergeCompletions, hcompletions, mergeMetadata_nothing hmetadata]

theorem mergeChat_nothing {r : ChatResponse} (h : (chat r).HoldsNothing) (xs ys : List ChatResponse) :
    mergeChat (xs ++ r :: ys) = mergeChat (xs ++ ys) := by
  obtain ⟨hmessage, hblocks, hsuggestions, hmetadata⟩ := h
  simp [mergeChat, hblocks, hsuggestions, firstText_nothing hmessage, mergeMetadata_nothing hmetadata]

theorem mergeEdits_nothing {r : CodeEditResult} (h : (edits r).HoldsNothing) (xs ys : List CodeEditResult) :
    mergeEdits (xs ++ r :: ys) = mergeEdits (xs ++ ys) := by
  obtain ⟨hedits, hexplanation, hmetadata⟩ := h
  simp [mergeEdits, hedits, firstText_nothing hexplanation, mergeMetadata_nothing hmetadata]

/-- A result with nothing in it makes no difference anywhere. -/
theorem merge_nothing {e : Result} (he : e.HoldsNothing) (kind : Capability) (xs ys : List Result) :
    merge kind (xs ++ e :: ys) = merge kind (xs ++ ys) := by
  cases kind with
  | codeCompletion => cases e <;>
      simp [merge, List.filterMap_cons, completions?, mergeCompletions_nothing, he]
  | chat => cases e <;> simp [merge, List.filterMap_cons, chat?, mergeChat_nothing, he]
  | codeEdit => cases e <;> simp [merge, List.filterMap_cons, edits?, mergeEdits_nothing, he]
  | _ => rfl

/-! ### Nested merging -/

/-- **Merging in groups is merging at once**, for every kind that fans out: whatever the groups are, some perhaps empty,
their merged results merge into what all results merge into.  So it does not matter which of three results are merged
first, a merged result merges into itself, and results with nothing in them can be left out. -/
theorem merge_nested (hk : kind.fansOut = true) :
    (∀ groups : List (List Result), ∃ merged m, groups.mapM (merge kind) = .ok merged ∧ merge kind merged = .ok m ∧
      merge kind groups.flatten = .ok m) ∧
    (∀ a b c : Result, ∃ ab bc m, merge kind [a, b] = .ok ab ∧ merge kind [b, c] = .ok bc ∧
      merge kind [ab, c] = .ok m ∧ merge kind [a, bc] = .ok m) ∧
    (∀ rs : List Result, ∃ m, merge kind rs = .ok m ∧ merge kind [m] = .ok m) ∧
    ∀ (xs : List Result) (e : Result) (ys : List Result), e.HoldsNothing →
      ∃ m, merge kind (xs ++ ys) = .ok m ∧ merge kind (xs ++ e :: ys) = .ok m := by
  refine ⟨fun groups => ?_, fun a b c => ?_, fun rs => ?_, fun xs e ys he => ?_⟩
  · obtain ⟨merged, hmerged⟩ := exists_mapM_merge hk groups
    obtain ⟨m, hm⟩ := exists_merge hk groups.flatten
    exact ⟨merged, m, hmerged, (merge_groups [] hmerged).trans hm, hm⟩
  · obtain ⟨ab, hab⟩ := exists_merge hk [a, b]
    obtain ⟨bc, hbc⟩ := exists_merge hk [b, c]
    obtain ⟨m, hm⟩ := exists_merge hk [a, b, c]
    exact ⟨ab, bc, m, hab, hbc, (merge_merged hab [] [c]).trans hm, (merge_merged hbc [a] []).trans hm⟩
  · obtain ⟨m, hm⟩ := exists_merge hk rs
    refine ⟨m, hm, (merge_merged hm [] []).trans ?_⟩
    rw [List.nil_append, List.append_nil, hm]
  · obtain ⟨m, hm⟩ := exists_merge hk (xs ++ ys)
    exact ⟨m, hm, (merge_nothing he kind xs ys).trans hm⟩

/-- A silent provider and one that says hi in one group, nobody in the next, and one that says hello in the last. -/
def greetings : List (List Result) :=
  [[.chat { message := none, metadata := none },
      .chat { message := some "Hi", suggestions := ["a", "b"], metadata := some [("by", .text "first")] }], [],
    [.chat { message := some "Hello", suggestions := ["b", "c"], metadata := some [("by", .text "second")] }]]

theorem merge_nested_greetings :
    ∃ merged, greetings.mapM (merge .chat) = .ok merged ∧ merge .chat merged =
      .ok (.chat { message := some "Hi", suggestions := ["a", "b", "c"], metadata := some [("by", .text "second")] }) := by
  have hchat : Capability.chat.fansOut = true := rfl
  obtain ⟨merged, m, hmerged, hm, hflat⟩ := (merge_nested hchat).1 greetings
  refine ⟨merged, hmerged, hm.trans (hflat.symm.trans ?_)⟩
  rfl

end Result

end Orchestra
