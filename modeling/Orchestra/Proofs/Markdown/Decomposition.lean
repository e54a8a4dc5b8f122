import Mathlib.Data.List.DropRight
import Orchestra.Proofs.Markdown.Fencing

/-!
# Orchestra.Proofs.Markdown.Decomposition — the leftmost blocks that do not overlap

A text falls apart into gaps and fenced blocks in exactly one way if every block ends at the first three backticks and no
block begins in a gap (`Decomposes`).  The scanner finds that way: it steps over a character where no block begins, which
lengthens the first gap, and over a block where one does (`found_decomposes`).
-/

namespace Orchestra.Markdown

/-! ### Pieces of a text -/

/-- A fenced block, its blanks behind the tag, and the text between the block before and this one. -/
structure Piece extends Block where
  gap : List Char
  blanks : List Char

/-- The block as it stands in the text. -/
def Piece.fenced (p : Piece) : List Char := fence ++ p.tag ++ p.blanks ++ '\n' :: (p.body ++ fence)

/-- The code block that a piece stands for: its tag, and its body without the line ends after it. -/
def Piece.code (p : Piece) : CodeBlock where
  code := String.ofList (p.body.rdropWhile (· == '\n'))
  language := String.ofList p.tag

/-- The tag is the whole run of tag characters, only blanks stand between it and the line end, and the first three
backticks after the line close the block. -/
structure Piece.Sound (p : Piece) : Prop where
  tag : (p.tag ++ p.blanks ++ ['\n']).takeWhile isTag = p.tag
  blanks : ∀ c ∈ p.blanks, isBlank c
  body : Closes p.body

/-- No block begins at any place of the gap, read with what comes after it. -/
def Clear (gap rest : List Char) : Prop := ∀ pre post, pre ++ post = gap → post ≠ [] → ¬ Begins (post ++ rest)

/-- A text that is made of pieces and a last gap, all blocks sound and all gaps clear. -/
inductive Decomposes : List Char → List Piece → List Char → Prop
  | plain {last : List Char} (hclear : Clear last []) : Decomposes last [] last
  | piece {p : Piece} {rest : List Char} {ps : List Piece} {last : List Char} (hsound : p.Sound)
      (hclear : Clear p.gap (p.fenced ++ rest)) (hrest : Decomposes rest ps last) :
      Decomposes (p.gap ++ p.fenced ++ rest) (p :: ps) last

/-- The text of pieces one after another. -/
def written (ps : List Piece) : List Char := ps.flatMap fun p => p.gap ++ p.fenced

variable {c : Char} {cs rest gap last : List Char} {b : Block} {p : Piece} {ps qs : List Piece}

theorem Decomposes.text (h : Decomposes cs ps last) : cs = written ps ++ last := by
  induction h with
  | plain => rfl
  | piece _ _ _ ih =>
    rw [ih]
    simp only [written, List.flatMap_cons, List.append_assoc]

/-! ### Gaps -/

theorem clear_nil (rest : List Char) : Clear [] rest := fun _ _ h hpost => absurd (List.append_eq_nil_iff.mp h).2 hpost

theorem clear_cons : Clear (c :: gap) rest ↔ ¬ Begins (c :: (gap ++ rest)) ∧ Clear gap rest := by
  constructor
  · intro h
    refine ⟨h [] (c :: gap) rfl (List.cons_ne_nil _ _), fun pre post hsplit => h (c :: pre) post ?_⟩
    exact congrArg (c :: ·) hsplit
  · rintro ⟨hhere, h⟩ pre post hsplit hpost
    cases pre with
    | nil =>
      obtain rfl : post = c :: gap := hsplit
      exact hhere
    | cons d pre => exact h pre post (List.cons.inj hsplit).2 hpost

theorem not_begins_nil : ¬ Begins [] := by
  rintro ⟨tag, blanks, rest, h, -⟩
  simp [fence] at h

/-- A character at which no block begins joins the first gap. -/
theorem Decomposes.skip (h : Decomposes cs ps last) (hhere : ¬ Begins (c :: cs)) :
    ∃ ps' last', Decomposes (c :: cs) ps' last' ∧ ps'.map Piece.toBlock = ps.map Piece.toBlock := by
  cases h with
  | plain hclear =>
    refine ⟨[], c :: cs, .plain (clear_cons.mpr ⟨?_, hclear⟩), rfl⟩
    rwa [List.append_nil]
  | @piece p rest ps _ hsound hclear hrest =>
    have hlonger : Piece.Sound { p with gap := c :: p.gap } := ⟨hsound.tag, hsound.blanks, hsound.body⟩
    refine ⟨{ p with gap := c :: p.gap } :: ps, last, .piece hlonger (clear_cons.mpr ⟨?_, hclear⟩) hrest, rfl⟩
    rwa [List.append_assoc] at hhere

/-! ### What the scanner finds -/

theorem found_nil : found [] = [] := by
  rw [found]
  rfl

theorem found_cons (h : block? (c :: cs) = none) : found (c :: cs) = found cs := by
  rw [found]
  split
  · next heq => exact absurd (h.symm.trans heq) (Option.some_ne_none _).symm
  · rfl

theorem found_block (h : block? cs = some (b, rest)) : found cs = b :: found rest := by
  rw [found]
  split
  · next heq =>
    obtain ⟨rfl, rfl⟩ := Prod.mk.inj (Option.some.inj (h.symm.trans heq))
    rfl
  · next heq => exact absurd (h.symm.trans heq) (Option.some_ne_none _)

/-- A block that is found here is a sound piece without a gap, and what follows it is the rest. -/
theorem block?_piece (h : block? cs = some (b, rest)) :
    ∃ p : Piece, p.toBlock = b ∧ p.gap = [] ∧ p.Sound ∧ cs = p.fenced ++ rest := by
  obtain ⟨inside, hopen, huntil⟩ := block?_eq_some.mp h
  obtain ⟨blanks, rfl, htag, hblanks⟩ := opening_eq_some.mp hopen
  obtain ⟨rfl, hbody⟩ := untilFence_eq_some.mp huntil
  refine ⟨⟨b, [], blanks⟩, rfl, rfl, ⟨?_, hblanks, hbody⟩, ?_⟩
  · rw [List.append_assoc, takeWhile_isTag htag hblanks]
  · simp only [Piece.fenced, List.append_assoc, List.cons_append]

theorem Piece.Sound.block? (h : p.Sound) (rest : List Char) :
    block? (p.fenced ++ rest) = some (p.toBlock, rest) := by
  have htag : ∀ c ∈ p.tag, isTag c := fun c hc => List.mem_takeWhile_imp (h.tag.symm ▸ hc)
  refine block?_eq_some.mpr ⟨p.body ++ fence ++ rest, opening_eq_some.mpr ⟨p.blanks, ?_, htag, h.blanks⟩,
    untilFence_eq_some.mpr ⟨rfl, h.body⟩⟩
  simp only [Piece.fenced, List.append_assoc, List.cons_append]

theorem Piece.Sound.begins (h : p.Sound) (rest : List Char) : Begins (p.fenced ++ rest) :=
  block?_isSome.mp (Option.isSome_of_mem (h.block? rest))

/-- **The scanner finds a decomposition** of every text. -/
theorem found_decomposes (cs : List Char) :
    ∃ ps last, Decomposes cs ps last ∧ found cs = ps.map Piece.toBlock := by
  induction hn : cs.length using Nat.strong_induction_on generalizing cs with
  | _ n ih =>
    subst hn
    cases hblock : block? cs with
    | some found =>
      obtain ⟨b, rest⟩ := found
      obtain ⟨ps, last, hrest, hps⟩ := ih rest.length (block?_length hblock) rest rfl
      obtain ⟨p, rfl, hgap, hsound, rfl⟩ := block?_piece hblock
      refine ⟨p :: ps, last, ?_, by rw [found_block hblock, hps, List.map_cons]⟩
      have hpiece := Decomposes.piece hsound (hgap ▸ clear_nil _) hrest
      rwa [hgap, List.nil_append] at hpiece
    | none =>
      have hhere : ¬ Begins cs := fun h => absurd (block?_isSome.mpr h) (by simp [hblock])
      cases cs with
      | nil => exact ⟨[], [], .plain (clear_nil _), found_nil⟩
      | cons c cs =>
        obtain ⟨ps, last, hcs, hps⟩ := ih cs.length (Nat.lt_succ_self _) cs rfl
        obtain ⟨ps', last', hskip, heq⟩ := hcs.skip hhere
        exact ⟨ps', last', hskip, by rw [found_cons hblock, hps, heq]⟩

/-! ### No second decomposition -/

/-- Of two ways to cut a text into a clear gap and a place where a block begins, neither gap is shorter. -/
theorem Clear.length_le {gap' rest' : List Char} (h : Clear gap rest) (hbegins : Begins rest')
    (heq : gap ++ rest = gap' ++ rest') : gap.length ≤ gap'.length := by
  by_contra hlt
  obtain ⟨post, rfl, rfl⟩ : ∃ post, gap = gap' ++ post ∧ rest' = post ++ rest := by
    rcases List.append_eq_append_iff.mp heq with ⟨more, rfl, hmore⟩ | ⟨post, hgap, hpost⟩
    · exact absurd (by simp) hlt
    · exact ⟨post, hgap, hpost⟩
  refine h gap' post rfl ?_ hbegins
  rintro rfl
  exact hlt (by simp)

theorem Piece.ext_of_fenced {q : Piece} {rest' : List Char} (hp : p.Sound) (hq : q.Sound) (hgap : p.gap = q.gap)
    (heq : p.fenced ++ rest = q.fenced ++ rest') : p = q ∧ rest = rest' := by
  have hblock := hp.block? rest
  rw [heq, hq.block?] at hblock
  obtain ⟨hb, rfl⟩ := Prod.mk.inj (Option.some.inj hblock)
  have hfenced := List.append_cancel_right heq
  obtain ⟨b, gap, blanks⟩ := p
  obtain ⟨b', gap', blanks'⟩ := q
  obtain rfl : b' = b := hb
  obtain rfl : gap = gap' := hgap
  simp only [Piece.fenced, List.append_assoc] at hfenced
  have hline := List.append_cancel_left (List.append_cancel_left hfenced)
  exact ⟨by rw [List.append_cancel_right hline], rfl⟩

/-- **There is only one** decomposition of a text. -/
theorem Decomposes.unique {last' : List Char} (hp : Decomposes cs ps last) (hq : Decomposes cs qs last') :
    ps = qs ∧ last = last' := by
  induction hp generalizing qs last' with
  | @plain last hclear =>
    cases hq with
    | plain => exact ⟨rfl, rfl⟩
    | @piece q rest qs _ hsound _ _ =>
      have hle := hclear.length_le (hsound.begins rest) (by rw [List.append_nil, List.append_assoc])
      exact absurd hle (by simp [Piece.fenced, fence])
  | @piece p rest ps last hsound hclear hrest ih =>
    generalize htext : p.gap ++ p.fenced ++ rest = text at hq
    cases hq with
    | plain hclear' =>
      have hle := hclear'.length_le (hsound.begins rest) (by rw [List.append_nil, ← htext, List.append_assoc])
      rw [← htext] at hle
      exact absurd hle (by simp [Piece.fenced, fence])
    | @piece q rest' qs _ hsound' hclear' hrest' =>
      rw [List.append_assoc, List.append_assoc] at htext
      have hlen : p.gap.length = q.gap.length :=
        le_antisymm (hclear.length_le (hsound'.begins rest') htext) (hclear'.length_le (hsound.begins rest) htext.symm)
      obtain ⟨hgap, hfenced⟩ := List.append_inj htext hlen
      obtain ⟨rfl, rfl⟩ := Piece.ext_of_fenced hsound hsound' hgap hfenced
      obtain ⟨rfl, rfl⟩ := ih hrest'
      exact ⟨rfl, rfl⟩

/-! ### Nothing is missed -/

/-- Wherever a block begins, one of the pieces has begun and has not ended. -/
theorem Decomposes.covers {pre post : List Char} (h : Decomposes cs ps last) (hsplit : pre ++ post = cs)
    (hbegins : Begins post) :
    ∃ before p after, ps = before ++ p :: after ∧ (written before ++ p.gap).length ≤ pre.length ∧
      pre.length < (written before ++ p.gap ++ p.fenced).length := by
  induction h generalizing pre with
  | plain hclear =>
    refine absurd hbegins ?_
    rw [← List.append_nil post]
    refine hclear pre post hsplit ?_
    rintro rfl
    exact not_begins_nil hbegins
  | @piece p rest ps last _ hclear _ ih =>
    have hgap : p.gap.length ≤ pre.length := by
      rw [List.append_assoc] at hsplit
      exact hclear.length_le hbegins hsplit.symm
    by_cases hend : pre.length < (p.gap ++ p.fenced).length
    · exact ⟨[], p, ps, rfl, hgap, hend⟩
    · obtain ⟨pre', rfl⟩ : p.gap ++ p.fenced <+: pre :=
        List.prefix_of_prefix_length_le ⟨rest, rfl⟩ ⟨post, hsplit⟩ (Nat.not_lt.mp hend)
      rw [List.append_assoc _ pre'] at hsplit
      obtain ⟨before, q, after, rfl, hstart, hstop⟩ := ih (List.append_cancel_left hsplit)
      refine ⟨p :: before, q, after, rfl, ?_, ?_⟩ <;>
      · simp only [written, List.flatMap_cons, List.length_append] at hstart hstop ⊢
        omega

/-! ### The codes -/

theorem Decomposes.sound (h : Decomposes cs ps last) (hp : p ∈ ps) : p.Sound := by
  induction h with
  | plain => exact absurd hp List.not_mem_nil
  | piece hsound _ _ ih =>
    rcases List.mem_cons.mp hp with rfl | hp
    · exact hsound
    · exact ih hp

theorem Piece.Sound.code (h : p.Sound) : ¬ fence <:+: p.code.code.toList ∧ p.code.code.toList.getLast? ≠ some '\n' := by
  rw [Piece.code, String.toList_ofList]
  refine ⟨fun hfence => h.body.not_infix (hfence.trans (List.rdropWhile_prefix _ _).isInfix), fun hlast => ?_⟩
  have hne : p.body.rdropWhile (· == '\n') ≠ [] := fun hnil => by simp [hnil] at hlast
  rw [List.getLast?_eq_getLast_of_ne_nil hne, Option.some.injEq] at hlast
  exact List.rdropWhile_last_not _ _ hne (by rw [hlast]; rfl)

/-- **The code blocks of a text** are those of its one decomposition into clear gaps and fenced blocks.  No block that is
complete is missed, and no code holds a fence or ends in a line end. -/
theorem blocks_leftmost (text : String) :
    ∃ ps last, Decomposes text.toList ps last ∧ text.toList = written ps ++ last ∧
      (∀ ps' last', Decomposes text.toList ps' last' → ps' = ps ∧ last' = last) ∧
      blocks text = ps.map Piece.code ∧
      (∀ pre post, pre ++ post = text.toList → Begins post →
        ∃ before p after, ps = before ++ p :: after ∧ (written before ++ p.gap).length ≤ pre.length ∧
          pre.length < (written before ++ p.gap ++ p.fenced).length) ∧
      ∀ b ∈ blocks text, ¬ fence <:+: b.code.toList ∧ b.code.toList.getLast? ≠ some '\n' := by
  obtain ⟨ps, last, hps, hfound⟩ := found_decomposes text.toList
  have hblocks : blocks text = ps.map Piece.code := by
    rw [blocks, hfound, List.map_map]
    rfl
  refine ⟨ps, last, hps, hps.text, fun ps' last' h => h.unique hps, hblocks, fun pre post => hps.covers,
    fun b hb => ?_⟩
  rw [hblocks] at hb
  obtain ⟨p, hp, rfl⟩ := List.mem_map.mp hb
  exact (hps.sound hp).code

-- the fourth backtick is where a block begins; what closes it could have opened another
example : blocks "a ````py \nx\n\n```b```\n```" = [{ code := "x", language := "py" }, { code := "" }] := by cbv

end Orchestra.Markdown
