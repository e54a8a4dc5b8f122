import Orchestra.ModelReply
import Orchestra.Proofs.Writing

/-!
# Orchestra.Proofs.ModelReply — only blocks that speak are heard

A block speaks if it has no type or the type `text`, and a text that is not empty.  The text of a reply is what its
speaking blocks say, one after the other (`heard`), and all else that is kept of a reply comes from this text and from
what stands beside the content.  So whatever else a model gives, thinking or calls of tools, could as well be left out
(`ofGiven_heard`).  All of this holds however texts are written, and also where one of them cannot be.  What is kept of a
reply in the end is said by `Converts`.
-/

namespace Orchestra

theorem ContentBlock.bearsText_iff (b : ContentBlock) :
    b.bearsText = true ↔ b.type = .null ∨ b.type = .text "text" := by
  unfold bearsText
  cases b.type with
  | text t => simp
  | null | bool b | number n | list items | object entries => simp

namespace GivenBlock

variable {b : GivenBlock} {content xs ys : List GivenBlock}

/-- The block has a type, and it is another than `text`. -/
def Hidden (b : GivenBlock) : Prop := b.read "type" ≠ .null ∧ b.read "type" ≠ .text "text"

/-- The block has no type or the type `text`, and a text that is not empty. -/
def Speaks (b : GivenBlock) : Prop :=
  (b.read "type" = .null ∨ b.read "type" = .text "text") ∧ (b.read "text").isSet = true

theorem Hidden.not_speaks (h : b.Hidden) : ¬ b.Speaks := fun hs => hs.1.elim h.1 h.2

theorem text?_of_speaks (written : Writing) (h : b.Speaks) : b.block.text? written = some (written (b.read "text")) := by
  have hbears : b.block.bearsText = true := b.block.bearsText_iff.mpr h.1
  have hset : b.block.text.isSet = true := h.2
  rw [ContentBlock.text?, hbears, hset]
  rfl

theorem text?_of_not_speaks (written : Writing) (h : ¬ b.Speaks) : b.block.text? written = none := by
  refine if_neg fun hboth => h ?_
  obtain ⟨hbears, hset⟩ := Bool.and_eq_true_iff.mp hboth
  exact ⟨b.block.bearsText_iff.mp hbears, hset⟩

/-! ### What is heard of a content -/

variable {written : Writing}

/-- The texts of the blocks that speak, in order, as far as they can be written. -/
def heard (written : Writing) (content : List GivenBlock) : List (Except Fault String) :=
  content.filterMap (·.block.text? written)

theorem heard_append (xs ys : List GivenBlock) : heard written (xs ++ ys) = heard written xs ++ heard written ys :=
  List.filterMap_append

theorem heard_eq_nil (h : ∀ b ∈ content, ¬ b.Speaks) : heard written content = [] :=
  List.filterMap_eq_nil_iff.mpr fun b hb => text?_of_not_speaks written (h b hb)

theorem heard_ne_nil (h : ∃ b ∈ content, b.Speaks) : heard written content ≠ [] := by
  obtain ⟨b, hb, hs⟩ := h
  exact List.ne_nil_of_mem (List.mem_filterMap.mpr ⟨b, hb, text?_of_speaks written hs⟩)

/-- A block that does not speak makes no difference, wherever it stands. -/
theorem heard_insert (h : ¬ b.Speaks) (xs ys : List GivenBlock) :
    heard written (xs ++ b :: ys) = heard written (xs ++ ys) := by
  have hcons : heard written (b :: ys) = heard written ys := List.filterMap_cons_none (text?_of_not_speaks written h)
  rw [heard_append, heard_append, hcons]

end GivenBlock

namespace ModelReply

open GivenBlock

variable {content content' : List GivenBlock} {usage : Option Usage} {finishReason : Option String} {written : Writing}

/-- Texts in a row, if all of them could be written. -/
def joined (texts : List (Except Fault String)) : Except Fault String := (texts.mapM id).map ("\n".intercalate ·)

theorem text_ofGiven (content : List GivenBlock) (usage : Option Usage) (finishReason : Option String) :
    (ofGiven content usage finishReason).text written = joined (heard written content) := by
  rw [text, ofGiven, List.filterMap_map]
  rfl

/-- One line end stands between two rows of texts. -/
theorem joined_append {xs ys : List (Except Fault String)} (hxs : xs ≠ []) (hys : ys ≠ []) :
    joined (xs ++ ys) = (joined xs).bind fun s => (joined ys).map fun t => s ++ "\n" ++ t := by
  have hne : ∀ {zs : List (Except Fault String)} {ts : List String}, zs.mapM id = .ok ts → zs ≠ [] → ts ≠ [] := by
    rintro zs ts h hzs rfl
    exact hzs (List.forall₂_nil_right_iff.mp (mapM_eq_ok.mp h))
  unfold joined
  rw [mapM_append]
  cases hx : xs.mapM id with
  | error f => rfl
  | ok as =>
    cases hy : ys.mapM id with
    | error f => rfl
    | ok bs => exact congrArg Except.ok (String.intercalate_append_of_ne_nil (hne hx hxs) (hne hy hys))

/-- The content enters a response through its text alone. -/
theorem toChat_ofGiven (h : heard written content = heard written content') (provider : String) :
    toChat written (some (ofGiven content usage finishReason)) provider =
      toChat written (some (ofGiven content' usage finishReason)) provider := by
  have htext : (ofGiven content usage finishReason).text written = (ofGiven content' usage finishReason).text written := by
    rw [text_ofGiven, text_ofGiven, h]
  have hmetadata : (ofGiven content usage finishReason).metadata provider =
      (ofGiven content' usage finishReason).metadata provider := rfl
  rw [toChat, toChat, htext, hmetadata]

/-- **Only blocks that speak are heard.**  However texts are written: a block of another type than `text` changes neither
the text of a reply nor anything of the response, wherever it is put; and the texts of two contents are joined by one line
end, unless nobody speaks in one of them. -/
theorem ofGiven_heard (written : Writing) (usage : Option Usage) (finishReason : Option String) (provider : String) :
    (∀ xs ys b, b.Hidden →
      (ofGiven (xs ++ b :: ys) usage finishReason).text written = (ofGiven (xs ++ ys) usage finishReason).text written ∧
      toChat written (some (ofGiven (xs ++ b :: ys) usage finishReason)) provider =
        toChat written (some (ofGiven (xs ++ ys) usage finishReason)) provider) ∧
    ∀ xs ys,
      ((∃ b ∈ xs, b.Speaks) → (∃ b ∈ ys, b.Speaks) → (ofGiven (xs ++ ys) usage finishReason).text written =
        ((ofGiven xs usage finishReason).text written).bind fun s =>
          ((ofGiven ys usage finishReason).text written).map fun t => s ++ "\n" ++ t) ∧
      ((∀ b ∈ xs, ¬ b.Speaks) →
        (ofGiven (xs ++ ys) usage finishReason).text written = (ofGiven ys usage finishReason).text written) ∧
      ((∀ b ∈ ys, ¬ b.Speaks) →
        (ofGiven (xs ++ ys) usage finishReason).text written = (ofGiven xs usage finishReason).text written) := by
  simp only [text_ofGiven]
  refine ⟨fun xs ys b hb => ?_, fun xs ys => ⟨fun hxs hys => ?_, fun hxs => ?_, fun hys => ?_⟩⟩
  · have hsame : heard written (xs ++ b :: ys) = heard written (xs ++ ys) := heard_insert hb.not_speaks xs ys
    exact ⟨congrArg _ hsame, toChat_ofGiven hsame provider⟩
  · rw [heard_append, joined_append (heard_ne_nil hxs) (heard_ne_nil hys)]
  · rw [heard_append, heard_eq_nil hxs, List.nil_append]
  · rw [heard_append, heard_eq_nil hys, List.append_nil]

/-- A text without a type, and one that is a number. -/
def said : List GivenBlock :=
  [.mapping [("text", .text "Hello")], .object [("type", .text "text"), ("text", .number (.int 5))]]

/-- A thought that is kept as a mapping and has a text of its own. -/
def thought : GivenBlock := .mapping [("type", .text "thinking"), ("text", .text "hm")]

theorem ofGiven_heard_thought :
    thought.Hidden ∧ (ofGiven [said[0], thought, said[1]] none none).text Value.inSentence = .ok "Hello\n5" ∧
      toChat Value.inSentence (some (ofGiven [said[0], thought, said[1]] none none)) "p" =
        toChat Value.inSentence (some (ofGiven said none none)) "p" ∧
      (ofGiven (said ++ [thought]) none none).text Value.inSentence = (ofGiven said none none).text Value.inSentence := by
  obtain ⟨hinserted, happended⟩ := ofGiven_heard Value.inSentence none none "p"
  have hhidden : thought.Hidden := ⟨nofun, fun h => by simp [thought, GivenBlock.read, Object.get?] at h⟩
  obtain ⟨htext, hchat⟩ := hinserted [said[0]] [said[1]] thought hhidden
  refine ⟨hhidden, htext.trans ?_, hchat, (happended said [thought]).2.2 fun b hb => ?_⟩
  · have hheard : heard Value.inSentence ([said[0]] ++ [said[1]]) =
        [.ok "Hello", Value.inSentence (.number (.int 5))] := rfl
    rw [text_ofGiven, hheard, Value.inSentence_int (by decide +kernel)]
    rfl
  · rw [List.mem_singleton.mp hb]
    exact hhidden.not_speaks

/-! ### What is kept -/

/-- What is kept of a reply, if there is one: the texts of the blocks that speak, the code in them, and beside it the
provider, the counts and the reason for the end as far as they are given. -/
inductive Converts (written : Writing) (provider : String) : Option ModelReply → ChatResponse → Prop
  | nothing : Converts written provider none { metadata := some [("provider", .text provider)] }
  | reply {r : ModelReply} {texts : List String} {counts finish : Object}
      (htexts : List.Forall₂ (fun b s => written b.text = .ok s)
        (r.content.filter fun b => b.bearsText && b.text.isSet) texts)
      (hcounts : r.usage = none ∧ counts = [] ∨
        ∃ u, r.usage = some u ∧ counts = [("usage", .object [("input", u.input), ("output", u.output)])])
      (hfinish : (r.finishReason = none ∨ r.finishReason = some "") ∧ finish = [] ∨
        ∃ s, s ≠ "" ∧ r.finishReason = some s ∧ finish = [("finish_reason", .text s)]) :
      Converts written provider (some r) {
        message := some ("\n".intercalate texts)
        codeBlocks := Markdown.blocks ("\n".intercalate texts)
        metadata := some ([("provider", .text provider)] ++ counts ++ finish) }

theorem filterMap_text? (content : List ContentBlock) :
    content.filterMap (ContentBlock.text? written) =
      (content.filter fun b => b.bearsText && b.text.isSet).map fun b => written b.text := by
  induction content with
  | nil => rfl
  | cons b content ih =>
    cases hb : b.bearsText && b.text.isSet with
    | true => simp [ContentBlock.text?, hb, ih]
    | false => simp [ContentBlock.text?, hb, ih]

theorem text_eq (r : ModelReply) : r.text written =
    ((r.content.filter fun b => b.bearsText && b.text.isSet).mapM fun b => written b.text).map ("\n".intercalate ·) := by
  rw [text, filterMap_text?, List.mapM_map]
  rfl

/-- **What is made of a reply** is what is kept of it. -/
theorem converts_of_toChat {reply : Option ModelReply} {provider : String} {chat : ChatResponse}
    (h : toChat written reply provider = .ok chat) : Converts written provider reply chat := by
  cases reply with
  | none =>
    cases h
    exact .nothing
  | some r =>
    rw [toChat, text_eq] at h
    obtain ⟨text, htext, rfl⟩ := map_eq_ok h
    obtain ⟨texts, htexts, rfl⟩ := map_eq_ok htext
    refine .reply (mapM_eq_ok.mp htexts) ?_ ?_
    · cases r.usage with
      | none => exact .inl ⟨rfl, rfl⟩
      | some u => exact .inr ⟨u, rfl, rfl⟩
    · cases r.finishReason with
      | none => exact .inl ⟨.inl rfl, rfl⟩
      | some s =>
        by_cases hs : s = ""
        · subst hs
          exact .inl ⟨.inr rfl, rfl⟩
        · exact .inr ⟨s, hs, rfl, by simp [hs]⟩

/-- A reply cannot be kept only over a block that speaks and cannot be written. -/
theorem toChat_eq_error {reply : Option ModelReply} {provider : String} {f : Fault}
    (h : toChat written reply provider = .error f) : ∃ r, reply = some r ∧
      ∃ b ∈ r.content, (b.bearsText && b.text.isSet) = true ∧ written b.text = .error f := by
  cases reply with
  | none => cases h
  | some r =>
    rw [toChat, text_eq] at h
    obtain ⟨b, hb, hf⟩ := mapM_eq_error (map_eq_error (map_eq_error h))
    obtain ⟨hmem, hspeaks⟩ := List.mem_filter.mp hb
    exact ⟨r, rfl, b, hmem, hspeaks, hf⟩

end ModelReply

end Orchestra
