import Orchestra.Context.Prompt
import Orchestra.Proofs.Markdown.Decomposition

/-!
# Orchestra.Proofs.Markdown.Rendering — codes that are fenced are found again

Codes rendered in fences, with prose before, between and after them, come back as they went in, but for the line ends after
each (`blocks_rendered`).  Neither prose nor codes may hold a fence; they may begin and end with backticks, since three
that are completed by those of a fence are followed by another, which no opening line allows (`Begins.after_fence`).
-/

namespace Orchestra.Markdown

variable {c : Char} {cs rest xs ys post : List Char}

/-! ### What is rendered -/

/-- No three backticks stand together in the text. -/
def Plain (text : String) : Prop := ¬ fence <:+: text.toList

instance (text : String) : Decidable (Plain text) := inferInstanceAs (Decidable (¬ _))

/-- A code under its language, and the prose after it. -/
structure Passage where
  language : String
  code : String
  prose : String

/-- The language is a tag, and nothing else holds a fence. -/
structure Passage.Fit (p : Passage) : Prop where
  language : ∀ c ∈ p.language.toList, isTag c
  code : Plain p.code
  prose : Plain p.prose

/-- The code block of a language and a code, without the line ends after the code. -/
def codeOf (language code : String) : CodeBlock where
  code := String.ofList (code.toList.rdropWhile (· == '\n'))
  language := language

/-- Prose, and then codes in fences, each followed by its prose. -/
def rendered : String → List Passage → String
  | opening, [] => opening
  | opening, p :: ps => opening ++ fenced p.language p.code ++ rendered p.prose ps

/-! ### Three backticks in a text -/

/-- A fence does not reach over a character that is no backtick. -/
theorem fence_prefix_of_append (h : fence <+: xs ++ c :: ys) (hc : c ≠ '`') : fence <+: xs := by
  rcases xs with _ | ⟨x₁, _ | ⟨x₂, _ | ⟨x₃, xs⟩⟩⟩ <;>
    simp only [fence, List.nil_append, List.cons_append, List.cons_prefix_cons] at h ⊢
  · exact absurd h.1.symm hc
  · exact absurd h.2.1.symm hc
  · exact absurd h.2.2.1.symm hc
  · exact ⟨h.1, h.2.1, h.2.2.1, List.nil_prefix⟩

/-- A line end after a text without a fence keeps it apart from the fence that closes it. -/
theorem closes_line (h : ¬ fence <:+: cs) : Closes (cs ++ ['\n']) := by
  induction cs with
  | nil =>
    refine closes_cons.mpr ⟨fun hpre => ?_, closes_nil⟩
    have hnil : fence <+: [] := fence_prefix_of_append hpre (by decide)
    exact absurd hnil (by simp [fence])
  | cons c cs ih =>
    rw [List.infix_cons_iff, not_or] at h
    refine closes_cons.mpr ⟨fun hpre => h.1 ?_, ih h.2⟩
    have hpre : fence <+: c :: cs ++ '\n' :: fence := by simpa using hpre
    exact fence_prefix_of_append hpre (by decide)

theorem not_isTag_backtick : isTag '`' = false := by decide

/-- After the three backticks of an opening line there is no fourth. -/
theorem Begins.after_fence (h : Begins cs) : ∃ rest, cs = fence ++ rest ∧ rest.head? ≠ some '`' := by
  obtain ⟨tag, blanks, rest, rfl, htag, hblanks, -⟩ := h
  refine ⟨tag ++ (blanks ++ '\n' :: rest), by simp only [List.append_assoc], fun hhead => ?_⟩
  cases tag with
  | cons c tag =>
    obtain rfl : c = '`' := Option.some.inj hhead
    exact absurd (htag '`' List.mem_cons_self) (by rw [not_isTag_backtick]; decide)
  | nil =>
    cases blanks with
    | cons c blanks =>
      obtain rfl : c = '`' := Option.some.inj hhead
      exact absurd (hblanks '`' List.mem_cons_self) (by decide)
    | nil => exact absurd (Option.some.inj hhead) (by decide)

/-- No block begins in prose, neither before a fence nor at the end of the text. -/
theorem clear_of_plain (h : ¬ fence <:+: xs) (hrest : rest = [] ∨ fence <+: rest) : Clear xs rest := by
  rintro pre post rfl hpost hbegins
  have hnone : ¬ fence <+: post := fun hpre => h (hpre.isInfix.trans (List.suffix_append pre post).isInfix)
  obtain ⟨more, hmore, hhead⟩ := hbegins.after_fence
  rcases hrest with rfl | ⟨rest, rfl⟩
  · rw [List.append_nil] at hmore
    exact hnone ⟨more, hmore.symm⟩
  · -- three backticks from one or two before the fence on are followed by one of its own
    rcases post with _ | ⟨x₁, _ | ⟨x₂, _ | ⟨x₃, post⟩⟩⟩
    · exact hpost rfl
    · obtain ⟨-, rfl⟩ : x₁ = '`' ∧ '`' :: rest = more := by simpa [fence] using hmore
      exact hhead rfl
    · obtain ⟨-, -, rfl⟩ : x₁ = '`' ∧ x₂ = '`' ∧ '`' :: '`' :: rest = more := by simpa [fence] using hmore
      exact hhead rfl
    · obtain ⟨rfl, rfl, rfl, -⟩ : x₁ = '`' ∧ x₂ = '`' ∧ x₃ = '`' ∧ post ++ (fence ++ rest) = more := by
        simpa [fence] using hmore
      exact hnone ⟨post, rfl⟩

/-! ### The decomposition of what is rendered -/

/-- The piece of a rendered text that a passage makes, behind the prose before it. -/
def Passage.piece (p : Passage) (opening : String) : Piece where
  tag := p.language.toList
  body := p.code.toList ++ ['\n']
  gap := opening.toList
  blanks := []

theorem Passage.Fit.sound {p : Passage} (h : p.Fit) (opening : String) : (p.piece opening).Sound := by
  refine ⟨?_, List.forall_mem_nil _, closes_line h.code⟩
  show (p.language.toList ++ [] ++ ['\n']).takeWhile isTag = p.language.toList
  rw [List.append_assoc]
  exact takeWhile_isTag h.language (List.forall_mem_nil _) []

theorem toList_rendered_cons (opening : String) (p : Passage) (ps : List Passage) :
    (rendered opening (p :: ps)).toList =
      opening.toList ++ (p.piece opening).fenced ++ (rendered p.prose ps).toList := by
  simp only [rendered, fenced, String.toList_append, Piece.fenced, Passage.piece, List.append_assoc, List.append_nil,
    List.nil_append, List.cons_append]
  rfl

theorem Piece.code_piece (p : Passage) (opening : String) : (p.piece opening).code = codeOf p.language p.code := by
  rw [Piece.code, Passage.piece, codeOf, List.rdropWhile_concat_pos _ _ _ rfl, String.ofList_toList]

/-- **What is rendered falls apart** into the passages that it was made of. -/
theorem rendered_decomposes {opening : String} {ps : List Passage} (hopening : Plain opening) (hps : ∀ p ∈ ps, p.Fit) :
    ∃ pieces last, Decomposes (rendered opening ps).toList pieces last ∧
      pieces.map Piece.code = ps.map fun p => codeOf p.language p.code := by
  induction ps generalizing opening with
  | nil => exact ⟨[], opening.toList, .plain (clear_of_plain hopening (.inl rfl)), rfl⟩
  | cons p ps ih =>
    obtain ⟨hp, hps⟩ := List.forall_mem_cons.mp hps
    obtain ⟨pieces, last, hrest, hcodes⟩ := ih hp.prose hps
    refine ⟨p.piece opening :: pieces, last, ?_, by rw [List.map_cons, Piece.code_piece, hcodes, List.map_cons]⟩
    rw [toList_rendered_cons]
    refine .piece (hp.sound opening) (clear_of_plain hopening (.inr ?_)) hrest
    simp only [Piece.fenced, List.append_assoc]
    exact List.prefix_append _ _

/-- The code blocks of a text are those of any decomposition. -/
theorem Decomposes.blocks {text : String} {ps : List Piece} {last : List Char} (h : Decomposes text.toList ps last) :
    blocks text = ps.map Piece.code := by
  obtain ⟨ps', last', h', hfound⟩ := found_decomposes text.toList
  obtain ⟨rfl, -⟩ := h'.unique h
  rw [Markdown.blocks, hfound, List.map_map]
  rfl

/-- A code block that was found can be rendered, and reads as it was found. -/
theorem fit_of_mem_blocks {text : String} {b : CodeBlock} (h : b ∈ blocks text) :
    (∀ c ∈ b.language.toList, isTag c) ∧ Plain b.code ∧ codeOf b.language b.code = b := by
  obtain ⟨ps, last, hps, -⟩ := found_decomposes text.toList
  rw [hps.blocks] at h
  obtain ⟨p, hp, rfl⟩ := List.mem_map.mp h
  have hsound := hps.sound hp
  refine ⟨fun c hc => ?_, hsound.code.1, ?_⟩
  · rw [Piece.code, String.toList_ofList, ← hsound.tag] at hc
    exact List.mem_takeWhile_imp hc
  · rw [codeOf, Piece.code, String.toList_ofList, List.rdropWhile_idempotent]

/-- **Rendering round-trips.**  From prose without a fence, with codes without a fence between it, each rendered under a
tag, exactly these codes come back, in order and with their tags, less the line ends after each.  So the code blocks of any
text, rendered again in whatever prose, come back unchanged. -/
theorem blocks_rendered {opening : String} {ps : List Passage} (hopening : Plain opening) (hps : ∀ p ∈ ps, p.Fit) :
    blocks (rendered opening ps) = ps.map (fun p => codeOf p.language p.code) ∧
    ∀ (text : String) (again : List Passage),
      again.map (fun p => (p.language, p.code)) = (blocks text).map (fun b => (b.language, b.code)) →
      (∀ p ∈ again, Plain p.prose) → blocks (rendered opening again) = blocks text := by
  have hrendered : ∀ {ps : List Passage}, (∀ p ∈ ps, p.Fit) →
      blocks (rendered opening ps) = ps.map fun p => codeOf p.language p.code := by
    intro ps hps
    obtain ⟨pieces, last, hpieces, hcodes⟩ := rendered_decomposes hopening hps
    rw [hpieces.blocks, hcodes]
  refine ⟨hrendered hps, fun text again hsame hprose => ?_⟩
  have hfit : ∀ p ∈ again, p.Fit := by
    intro p hp
    have hmem : (p.language, p.code) ∈ (blocks text).map fun b => (b.language, b.code) :=
      hsame ▸ List.mem_map_of_mem (f := fun p : Passage => (p.language, p.code)) hp
    obtain ⟨b, hb, heq⟩ := List.mem_map.mp hmem
    obtain ⟨hlanguage, hcode⟩ := Prod.mk.inj heq
    obtain ⟨htag, hplain, -⟩ := fit_of_mem_blocks hb
    exact ⟨hlanguage ▸ htag, hcode ▸ hplain, hprose p hp⟩
  calc blocks (rendered opening again)
      = (again.map fun p => (p.language, p.code)).map fun x => codeOf x.1 x.2 := by
        rw [hrendered hfit, List.map_map]
        rfl
    _ = (blocks text).map fun b => codeOf b.language b.code := by
        rw [hsame, List.map_map]
        rfl
    _ = blocks text := by
        conv_rhs => rw [← List.map_id (blocks text)]
        exact List.map_congr_left fun b hb => (fit_of_mem_blocks hb).2.2

/-- Prose and codes with backticks where they meet fences, an empty code, and a code that ends in blank lines. -/
def passages : List Passage := [⟨"py", "``x`\n\n", "`"⟩, ⟨"", "", "``"⟩, ⟨"c++", "`", ""⟩]

theorem blocks_rendered_backticks :
    Plain "a ``" ∧ (∀ p ∈ passages, p.Fit) ∧
      blocks (rendered "a ``" passages) =
        [{ code := "``x`", language := "py" }, { code := "" }, { code := "`", language := "c++" }] := by
  have hopening : Plain "a ``" := by decide
  have hpassages : ∀ p ∈ passages, p.Fit := by
    intro p hp
    simp only [passages, List.mem_cons, List.not_mem_nil, or_false] at hp
    rcases hp with rfl | rfl | rfl
    all_goals exact ⟨List.all_eq_true.mp rfl, by decide, by decide⟩
  exact ⟨hopening, hpassages, (blocks_rendered hopening hpassages).1⟩

end Orchestra.Markdown
