import Mathlib.Data.List.Induction
import Orchestra.Proofs.Result.Nesting

/-!
# Orchestra.Proofs.Result.Combining — what is kept of chat responses and edits

Four rules side by side: suggestions are united in order of first occurrence (`idxOf_firstByKey`), the first text wins
(`firstOf_firstText`), the last metadata win (`get?_mergeMetadata`), and all else is put together as it is.
-/

namespace Orchestra

namespace Result

/-! ### Metadata -/

/-- The names of metadata; without metadata there are none. -/
def names (m : Option Object) : List String := Object.keys (m.getD [])

/-- The name has this value in the last metadata that have the name at all. -/
def LastOf (ms : List (Option Object)) (n : String) (v : Value) : Prop :=
  ∃ front m back, ms = front ++ some m :: back ∧ m.get? n = some v ∧ ∀ m' ∈ back, n ∉ names m'

variable {ms : List (Option Object)} {m : Option Object} {n : String} {v : Value}

theorem lastOf_concat :
    LastOf (ms ++ [m]) n v ↔ (m.getD []).get? n = some v ∨ (m.getD []).get? n = none ∧ LastOf ms n v := by
  constructor
  · rintro ⟨front, last, back, hsplit, hv, hback⟩
    cases back using List.reverseRecOn with
    | nil =>
      obtain ⟨-, hlast⟩ := List.append_inj' hsplit rfl
      obtain rfl := List.singleton_inj.mp hlast
      exact .inl hv
    | append_singleton back m' =>
      rw [← List.cons_append, ← List.append_assoc] at hsplit
      obtain ⟨hms, hlast⟩ := List.append_inj' hsplit rfl
      obtain rfl := List.singleton_inj.mp hlast
      refine .inr ⟨Object.get?_eq_none.mpr (hback m (by simp)), front, last, back, hms, hv, fun m' hm' => ?_⟩
      exact hback m' (List.mem_append_left _ hm')
  · rintro (hv | ⟨hnone, front, last, back, rfl, hv, hback⟩)
    · cases m with
      | none => cases hv
      | some o => exact ⟨ms, o, [], rfl, hv, fun _ h => nomatch h⟩
    · refine ⟨front, last, back ++ [m], by simp, hv, fun m' hm' => ?_⟩
      rcases List.mem_append.mp hm' with hm' | hm'
      · exact hback m' hm'
      · rw [List.mem_singleton.mp hm']
        exact Object.get?_eq_none.mp hnone

theorem mergeMetadata_concat (ms : List (Option Object)) (m : Option Object) :
    mergeMetadata (ms ++ [m]) = Object.overlay (mergeMetadata ms) (m.getD []) := mergeMetadata_append ms [m]

/-- **The last metadata win**, name by name. -/
theorem get?_mergeMetadata (hms : ∀ m ∈ ms, (names m).Nodup) :
    (mergeMetadata ms).get? n = some v ↔ LastOf ms n v := by
  induction ms using List.reverseRecOn with
  | nil =>
    refine iff_of_false (fun h => nomatch h) ?_
    rintro ⟨front, m, back, hsplit, -⟩
    simp at hsplit
  | append_singleton ms m ih =>
    have hbefore := ih fun m' hm' => hms m' (List.mem_append_left _ hm')
    rw [mergeMetadata_concat, Object.get?_overlay (hms m (by simp)), lastOf_concat, ← hbefore]
    cases (m.getD []).get? n <;> simp

theorem mem_keys_mergeMetadata (hms : ∀ m ∈ ms, (names m).Nodup) :
    n ∈ Object.keys (mergeMetadata ms) ↔ ∃ m ∈ ms, n ∈ names m := by
  induction ms using List.reverseRecOn with
  | nil => simp [mergeMetadata, Object.keys]
  | append_singleton ms m ih =>
    have hbefore := ih fun m' hm' => hms m' (List.mem_append_left _ hm')
    rw [← not_iff_not, ← Object.get?_eq_none, mergeMetadata_concat, Object.get?_overlay (hms m (by simp)),
      Option.or_eq_none_iff, Object.get?_eq_none, Object.get?_eq_none, hbefore]
    simp [names, and_comm]

theorem nodup_keys_mergeMetadata (ms : List (Option Object)) : (Object.keys (mergeMetadata ms)).Nodup := by
  rw [mergeMetadata, foldl_overlay]
  exact Object.nodup_keys_overlay (o := []) .nil _

/-! ### Texts -/

/-- The text is the first of all that is there and not empty; without one, it is the empty text. -/
def FirstOf (texts : List (Option String)) (text : String) : Prop :=
  (∃ front back, texts = front ++ some text :: back ∧ text ≠ "" ∧ ∀ t ∈ front, t.getD "" = "") ∨
    text = "" ∧ ∀ t ∈ texts, t.getD "" = ""

theorem firstText_cons (t : Option String) (texts : List (Option String)) :
    firstText (t :: texts) = if t.getD "" = "" then firstText texts else t.getD "" := by
  cases t with
  | none => rfl
  | some s => by_cases hs : s = "" <;> simp [firstText, Option.filter_some, hs]

/-- **The first text wins.** -/
theorem firstOf_firstText (texts : List (Option String)) : FirstOf texts (firstText texts) := by
  induction texts with
  | nil => exact .inr ⟨rfl, fun _ h => nomatch h⟩
  | cons t texts ih =>
    rw [firstText_cons]
    by_cases ht : t.getD "" = ""
    · rw [if_pos ht]
      rcases ih with ⟨front, back, htexts, hne, hfront⟩ | ⟨hempty, hall⟩
      · exact .inl ⟨t :: front, back, congrArg (t :: ·) htexts, hne, List.forall_mem_cons.mpr ⟨ht, hfront⟩⟩
      · exact .inr ⟨hempty, List.forall_mem_cons.mpr ⟨ht, hall⟩⟩
    · rw [if_neg ht]
      obtain ⟨s, rfl⟩ : ∃ s, t = some s := by cases t with
        | none => exact absurd rfl ht
        | some s => exact ⟨s, rfl⟩
      exact .inl ⟨[], texts, rfl, ht, fun _ h => nomatch h⟩

/-! ### Suggestions -/

section Order

variable {α : Type} [BEq α] [LawfulBEq α] {p : α → Bool} {s t : α}

/-- Leaving others out does not change which of two comes first. -/
theorem idxOf_filter (hs : p s = true) (ht : p t = true) (l : List α) :
    (l.filter p).idxOf s < (l.filter p).idxOf t ↔ l.idxOf s < l.idxOf t := by
  induction l with
  | nil => rfl
  | cons a l ih =>
    by_cases ha : p a = true
    · rw [List.filter_cons_of_pos ha, List.idxOf_cons, List.idxOf_cons, List.idxOf_cons, List.idxOf_cons]
      cases a == s <;> cases a == t <;> simp [ih]
    · have has : a ≠ s := fun h => ha (h ▸ hs)
      have hat : a ≠ t := fun h => ha (h ▸ ht)
      rw [List.filter_cons_of_neg ha, ih, List.idxOf_cons_ne l has, List.idxOf_cons_ne l hat, Nat.succ_lt_succ_iff]

/-- **First occurrences stay in order.** -/
theorem idxOf_firstByKey (s t : α) (l : List α) :
    (firstByKey id [] l).idxOf s < (firstByKey id [] l).idxOf t ↔ l.idxOf s < l.idxOf t := by
  induction l with
  | nil => rfl
  | cons a l ih =>
    rw [firstByKey_cons_nil, List.idxOf_cons, List.idxOf_cons, List.idxOf_cons, List.idxOf_cons]
    cases hs : a == s with
    | true => cases a == t <;> simp
    | false =>
      cases ht : a == t with
      | true => simp
      | false =>
        -- neither of the two is what the head leaves out
        have hs' : (id s != id a) = true := by simpa using Ne.symm (beq_eq_false_iff_ne.mp hs)
        have ht' : (id t != id a) = true := by simpa using Ne.symm (beq_eq_false_iff_ne.mp ht)
        have hrest := idxOf_filter (p := fun b => id b != id a) hs' ht' (firstByKey id [] l)
        simp only [cond_false, Nat.add_lt_add_iff_right, hrest, ih]

end Order

/-! ### Chat responses and edits -/

/-- Metadata put together: every name that occurs, with its value from the last that have it. -/
structure Overlaid (ms : List (Option Object)) (merged : Object) : Prop where
  nodup : (Object.keys merged).Nodup
  mem : ∀ n, n ∈ Object.keys merged ↔ ∃ m ∈ ms, n ∈ names m
  last : ∀ n v, merged.get? n = some v ↔ LastOf ms n v

/-- Texts without repetition: each that occurs, in order of first occurrence. -/
structure United (all merged : List String) : Prop where
  nodup : merged.Nodup
  mem : ∀ s, s ∈ merged ↔ s ∈ all
  order : ∀ s t, merged.idxOf s < merged.idxOf t ↔ all.idxOf s < all.idxOf t

theorem overlaid_mergeMetadata (hms : ∀ m ∈ ms, (names m).Nodup) : Overlaid ms (mergeMetadata ms) :=
  ⟨nodup_keys_mergeMetadata ms, fun _ => mem_keys_mergeMetadata hms, fun _ _ => get?_mergeMetadata hms⟩

theorem united_firstByKey (all : List String) : United all (firstByKey id [] all) := by
  have hnodup : ((firstByKey id [] all).map id).Nodup := nodup_map_firstByKey all
  have hmem : ∀ s, s ∈ (firstByKey id [] all).map id ↔ s ∈ all.map id := fun _ => mem_map_firstByKey
  rw [List.map_id] at hnodup
  simp only [List.map_id] at hmem
  exact ⟨hnodup, hmem, fun s t => idxOf_firstByKey s t all⟩

/-- **Chat responses and edits** are merged without loss or repetition.  Suggestions are united; code blocks and edits
follow one another just as they came; message and explanation are the first that say something; and metadata, each of
which has a name at most once, are overlaid. -/
theorem merge_combines {chats : List ChatResponse} {edits : List CodeEditResult}
    (hchats : ∀ r ∈ chats, (names r.metadata).Nodup) (hedits : ∀ r ∈ edits, (names r.metadata).Nodup) :
    (∃ suggestions message metadata,
      merge .chat (chats.map .chat) = .ok (.chat
        { message := some message, codeBlocks := (chats.map (·.codeBlocks)).flatten, suggestions
          metadata := some metadata }) ∧
      United (chats.map (·.suggestions)).flatten suggestions ∧
      FirstOf (chats.map (·.message)) message ∧
      Overlaid (chats.map (·.metadata)) metadata) ∧
    ∃ explanation metadata,
      merge .codeEdit (edits.map .edits) = .ok (.edits
        { edits := (edits.map (·.edits)).flatten, explanation := some explanation, metadata := some metadata }) ∧
      FirstOf (edits.map (·.explanation)) explanation ∧
      Overlaid (edits.map (·.metadata)) metadata := by
  have hchat : ∀ rs : List ChatResponse, (rs.map Result.chat).filterMap chat? = rs := fun rs => by
    rw [List.filterMap_map]
    exact List.filterMap_some
  have hedit : ∀ rs : List CodeEditResult, (rs.map Result.edits).filterMap edits? = rs := fun rs => by
    rw [List.filterMap_map]
    exact List.filterMap_some
  constructor
  · refine ⟨_, _, _, ?_, united_firstByKey _, firstOf_firstText _, overlaid_mergeMetadata ?_⟩
    · rw [merge, hchat, mergeChat, List.flatMap_def, List.flatMap_def]
    · simpa using hchats
  · refine ⟨_, _, ?_, firstOf_firstText _, overlaid_mergeMetadata ?_⟩
    · rw [merge, hedit, mergeEdits, List.flatMap_def]
    · simpa using hedits

/-- A silent provider, one that says hi and one that says hello; the last two suggest the same in another order. -/
theorem merge_combines_greetings :
    let chats : List ChatResponse := [{ message := none, metadata := none },
      { message := some "Hi", suggestions := ["b", "a", "b"], metadata := some [("by", .text "first"), ("x", .null)] },
      { message := some "Hello", suggestions := ["a", "c", "b"], metadata := some [("by", .text "second")] }]
    (∀ r ∈ chats, (names r.metadata).Nodup) ∧
      ∃ suggestions metadata,
        merge .chat (chats.map .chat) = .ok (.chat { message := some "Hi", suggestions, metadata := some metadata }) ∧
        suggestions = ["b", "a", "c"] ∧ metadata.get? "by" = some (.text "second") ∧
        United ["b", "a", "b", "a", "c", "b"] suggestions ∧
        Overlaid (chats.map (·.metadata)) metadata := by
  intro chats
  have hchats : ∀ r ∈ chats, (names r.metadata).Nodup := by decide
  have hedits : ∀ r ∈ ([] : List CodeEditResult), (names r.metadata).Nodup := fun _ h => nomatch h
  obtain ⟨⟨suggestions, message, metadata, hmerge, hunited, hfirst, hoverlaid⟩, -⟩ := merge_combines hchats hedits
  have hmerged : merge .chat (chats.map .chat) = .ok (.chat
      { message := some "Hi", suggestions := ["b", "a", "c"]
        metadata := some [("by", .text "second"), ("x", .null)] }) := rfl
  rw [hmerged] at hmerge
  cases hmerge
  exact ⟨hchats, _, _, hmerged, rfl, rfl, hunited, hoverlaid⟩

end Result

end Orchestra
