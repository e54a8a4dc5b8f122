import Mathlib.Data.List.TakeWhile
import Orchestra.Markdown.Fence

/-!
# Orchestra.Proofs.Markdown.Fencing — what the scanner of fences finds

Each function of the scanner gives a result exactly if the text can be written in one way: `untilFence` splits it at
three backticks that nothing closes earlier (`untilFence_eq_some`), `opening` behind an opening line
(`opening_eq_some`), and there is a block exactly where one begins (`block?_isSome`).
-/

namespace Orchestra.Markdown

variable {c : Char} {cs rest body after tag inside blanks : List Char}

/-- Three backticks. -/
def fence : List Char := ['`', '`', '`']

/-- Three backticks after the body are the first ones there are: none are in it, and none begin in it. -/
def Closes (body : List Char) : Prop := ∀ pre suf, body ++ fence = pre ++ fence ++ suf → suf = []

/-- An opening fence stands here, and after its line there are three backticks somewhere. -/
def Begins (cs : List Char) : Prop :=
  ∃ tag blanks rest, cs = fence ++ tag ++ blanks ++ '\n' :: rest ∧ (∀ c ∈ tag, isTag c) ∧ (∀ c ∈ blanks, isBlank c) ∧
    fence <:+: rest

/-! ### The first three backticks -/

theorem closes_nil : Closes [] := by
  intro pre suf h
  have hlen := congrArg List.length h
  simp only [fence, List.length_append, List.length_cons, List.length_nil] at hlen
  exact List.eq_nil_of_length_eq_zero (by omega)

theorem closes_cons : Closes (c :: body) ↔ ¬ fence <+: c :: body ++ fence ∧ Closes body := by
  constructor
  · intro h
    refine ⟨fun ⟨suf, hsuf⟩ => ?_, fun pre suf hsplit => h (c :: pre) suf (congrArg (c :: ·) hsplit)⟩
    obtain rfl := h [] suf hsuf.symm
    have hlen := congrArg List.length hsuf
    simp only [fence, List.length_append, List.length_cons, List.length_nil] at hlen
    omega
  · rintro ⟨hne, h⟩ pre suf hsplit
    cases pre with
    | nil => exact absurd ⟨suf, hsplit.symm⟩ hne
    | cons d pre => exact h pre suf (List.cons.inj hsplit).2

theorem Closes.not_infix (h : Closes body) : ¬ fence <:+: body := by
  rintro ⟨pre, suf, rfl⟩
  have hsuf := h pre (suf ++ fence) (List.append_assoc ..)
  exact absurd (List.append_eq_nil_iff.mp hsuf).2 (List.cons_ne_nil _ _)

theorem untilFence_fence (after : List Char) : untilFence (fence ++ after) = some ([], after) := rfl

theorem untilFence_cons (h : ¬ fence <+: c :: rest) :
    untilFence (c :: rest) = (untilFence rest).map fun (body, after) => (c :: body, after) := by
  rw [untilFence]
  rintro rest' rfl rfl
  exact h ⟨rest', rfl⟩

/-- **The first three backticks** are found, and nothing else. -/
theorem untilFence_eq_some : untilFence cs = some (body, after) ↔ cs = body ++ fence ++ after ∧ Closes body := by
  constructor
  · intro h
    induction cs generalizing body with
    | nil => simp [untilFence] at h
    | cons c rest ih =>
      by_cases hfence : fence <+: c :: rest
      · obtain ⟨after', hafter⟩ := hfence
        rw [← hafter, untilFence_fence, Option.some.injEq, Prod.mk.injEq] at h
        obtain ⟨rfl, rfl⟩ := h
        exact ⟨hafter.symm, closes_nil⟩
      · rw [untilFence_cons hfence, Option.map_eq_some_iff] at h
        obtain ⟨⟨b, a⟩, hfound, heq⟩ := h
        obtain ⟨rfl, rfl⟩ := Prod.mk.inj heq
        obtain ⟨rfl, hcloses⟩ := ih hfound
        refine ⟨rfl, closes_cons.mpr ⟨fun hpre => hfence ?_, hcloses⟩⟩
        exact hpre.trans (List.prefix_append (c :: b ++ fence) a)
  · rintro ⟨rfl, hcloses⟩
    induction body with
    | nil => rfl
    | cons c body ih =>
      obtain ⟨hne, hcloses⟩ := closes_cons.mp hcloses
      -- whether three backticks begin here is decided before the text after the fence is reached
      have hfence : ¬ fence <+: c :: (body ++ fence ++ after) := fun hpre => by
        refine hne (List.prefix_of_prefix_length_le hpre (List.prefix_append (c :: body ++ fence) after) ?_)
        simp [fence]
      rw [List.cons_append, List.cons_append, untilFence_cons hfence, ih hcloses]
      rfl

theorem untilFence_isSome : (untilFence cs).isSome ↔ fence <:+: cs := by
  induction cs with
  | nil => simp [untilFence, fence]
  | cons c rest ih =>
    rw [List.infix_cons_iff, ← ih]
    by_cases hfence : fence <+: c :: rest
    · obtain ⟨after, hafter⟩ := hfence
      rw [← hafter, untilFence_fence]
      simp
    · rw [untilFence_cons hfence, Option.isSome_map]
      simp [hfence]

/-! ### Opening lines -/

theorem isTag_of_isBlank (h : isBlank c) : isTag c = false := by
  rcases Bool.or_eq_true_iff.mp h with h | h <;> rw [beq_iff_eq.mp h] <;> rfl

theorem takeWhile_isTag_line (hblanks : ∀ c ∈ blanks, isBlank c) (rest : List Char) :
    (blanks ++ '\n' :: rest).takeWhile isTag = [] := by
  cases blanks with
  | nil => rfl
  | cons c blanks => exact List.takeWhile_cons_of_neg (Bool.eq_false_iff.mp (isTag_of_isBlank (hblanks c (.head _))))

theorem dropWhile_isTag_line (hblanks : ∀ c ∈ blanks, isBlank c) (rest : List Char) :
    (blanks ++ '\n' :: rest).dropWhile isTag = blanks ++ '\n' :: rest := by
  have h := List.takeWhile_append_dropWhile (p := isTag) (l := blanks ++ '\n' :: rest)
  rwa [takeWhile_isTag_line hblanks, List.nil_append] at h

/-- The tag of an opening line is the whole run of tag characters. -/
theorem takeWhile_isTag (htag : ∀ c ∈ tag, isTag c) (hblanks : ∀ c ∈ blanks, isBlank c) (rest : List Char) :
    (tag ++ (blanks ++ '\n' :: rest)).takeWhile isTag = tag := by
  rw [List.takeWhile_append_of_pos htag, takeWhile_isTag_line hblanks, List.append_nil]

/-- **An opening line** is found, and nothing else. -/
theorem opening_eq_some : opening cs = some (tag, inside) ↔
    ∃ blanks, cs = fence ++ tag ++ blanks ++ '\n' :: inside ∧ (∀ c ∈ tag, isTag c) ∧ ∀ c ∈ blanks, isBlank c := by
  constructor
  · intro h
    unfold opening at h
    split at h
    · next rest =>
      split at h
      · next body hbody =>
        obtain ⟨rfl, rfl⟩ := Prod.mk.inj (Option.some.inj h)
        refine ⟨(rest.dropWhile isTag).takeWhile isBlank, ?_, fun c => List.mem_takeWhile_imp,
          fun c => List.mem_takeWhile_imp⟩
        rw [← hbody, List.append_assoc, List.takeWhile_append_dropWhile, List.append_assoc,
          List.takeWhile_append_dropWhile]
        rfl
      · exact absurd h (by simp)
    · exact absurd h (by simp)
  · rintro ⟨blanks, rfl, htag, hblanks⟩
    rw [List.append_assoc, List.append_assoc]
    simp only [opening, fence, List.cons_append, List.nil_append]
    rw [List.dropWhile_append_of_pos htag, dropWhile_isTag_line hblanks, List.dropWhile_append_of_pos hblanks,
      takeWhile_isTag htag hblanks]
    rfl

/-! ### Blocks -/

theorem block?_eq_some {b : Block} : block? cs = some (b, after) ↔
    ∃ inside, opening cs = some (b.tag, inside) ∧ untilFence inside = some (b.body, after) := by
  simp only [block?, Option.bind_eq_bind, Option.bind_eq_some_iff, Option.pure_def, Option.some.injEq,
    Prod.mk.injEq]
  constructor
  · rintro ⟨⟨tag, inside⟩, hopen, ⟨body, rest⟩, huntil, rfl, rfl⟩
    exact ⟨inside, hopen, huntil⟩
  · rintro ⟨inside, hopen, huntil⟩
    exact ⟨(b.tag, inside), hopen, (b.body, after), huntil, rfl, rfl⟩

/-- **A block is found** exactly where one begins. -/
theorem block?_isSome : (block? cs).isSome ↔ Begins cs := by
  rw [Option.isSome_iff_exists]
  constructor
  · rintro ⟨⟨b, after⟩, h⟩
    obtain ⟨inside, hopen, huntil⟩ := block?_eq_some.mp h
    obtain ⟨blanks, rfl, htag, hblanks⟩ := opening_eq_some.mp hopen
    exact ⟨b.tag, blanks, inside, rfl, htag, hblanks, untilFence_isSome.mp (Option.isSome_of_mem huntil)⟩
  · rintro ⟨tag, blanks, inside, rfl, htag, hblanks, hfence⟩
    obtain ⟨⟨body, after⟩, huntil⟩ := Option.isSome_iff_exists.mp (untilFence_isSome.mpr hfence)
    exact ⟨(⟨tag, body⟩, after), block?_eq_some.mpr ⟨inside, opening_eq_some.mpr ⟨blanks, rfl, htag, hblanks⟩, huntil⟩⟩

end Orchestra.Markdown
