import Orchestra.Result
import Orchestra.Text.Word

/-!
# Orchestra.Markdown.Fence — fenced code blocks

A block is three backticks, a tag, blanks, a line end, a body and three backticks; the body ends at the first three
backticks.  `blocks` lists the leftmost blocks that do not overlap, with the line ends after each code removed.
-/

namespace Orchestra.Markdown

/-- The characters of a language tag. -/
def isTag (c : Char) : Bool := Text.isWord c || c == '+' || c == '#' || c == '.' || c == '-'

def isBlank (c : Char) : Bool := c == ' ' || c == '\t'

/-- What stands before the first three backticks, and what after them. -/
def untilFence : List Char → Option (List Char × List Char)
  | [] => none
  | '`' :: '`' :: '`' :: rest => some ([], rest)
  | c :: rest => (untilFence rest).map fun (body, after) => (c :: body, after)

/-- The tag of an opening fence and what follows its line. -/
def opening : List Char → Option (List Char × List Char)
  | '`' :: '`' :: '`' :: rest =>
    match (rest.dropWhile isTag).dropWhile isBlank with
    | '\n' :: body => some (rest.takeWhile isTag, body)
    | _ => none
  | _ => none

/-- A fenced block as it was found. -/
structure Block where
  tag : List Char
  body : List Char
  deriving DecidableEq, Repr

/-- The block that begins here, if one does and is closed, and the text after it. -/
def block? (cs : List Char) : Option (Block × List Char) := do
  let (tag, inside) ← opening cs
  let (body, after) ← untilFence inside
  return (⟨tag, body⟩, after)

theorem untilFence_length {cs body after : List Char} (h : untilFence cs = some (body, after)) :
    after.length < cs.length := by
  fun_induction untilFence cs generalizing body after with
  | case1 => simp at h
  | case2 rest =>
    simp only [Option.some.injEq, Prod.mk.injEq] at h
    rw [← h.2]
    simp only [List.length_cons]
    omega
  | case3 c rest _ ih =>
    obtain ⟨⟨b, a⟩, hb, he⟩ := Option.map_eq_some_iff.1 h
    simp only [Prod.mk.injEq] at he
    have := ih hb
    simp only [List.length_cons]
    rw [← he.2]
    omega

theorem length_dropWhile_le (p : Char → Bool) (cs : List Char) : (cs.dropWhile p).length ≤ cs.length :=
  (List.dropWhile_sublist p).length_le

theorem opening_length {cs tag inside : List Char} (h : opening cs = some (tag, inside)) :
    inside.length < cs.length := by
  unfold opening at h
  split at h
  · rename_i rest
    split at h
    · rename_i body hb
      simp only [Option.some.injEq, Prod.mk.injEq] at h
      have h1 := length_dropWhile_le isBlank (rest.dropWhile isTag)
      have h2 := length_dropWhile_le isTag rest
      rw [hb] at h1
      simp only [List.length_cons] at h1 ⊢
      rw [← h.2]
      omega
    · simp at h
  · simp at h

theorem block?_length {cs after : List Char} {b : Block} (h : block? cs = some (b, after)) :
    after.length < cs.length := by
  simp only [block?, Option.bind_eq_bind, Option.bind_eq_some_iff, Option.pure_def, Option.some.injEq,
    Prod.mk.injEq] at h
  obtain ⟨⟨tag, inside⟩, ho, ⟨body, rest⟩, hu, -, rfl⟩ := h
  have := opening_length ho
  have := untilFence_length hu
  simp only at *
  omega

/-- The blocks of a text from left to right. -/
def found (cs : List Char) : List Block :=
  match h : block? cs with
  | some (b, after) =>
    have : after.length < cs.length := block?_length h
    b :: found after
  | none =>
    match cs with
    | [] => []
    | _ :: rest => found rest
termination_by cs.length

/-- A code without the line ends after it. -/
def withoutLineEnds (cs : List Char) : List Char := (cs.reverse.dropWhile (· == '\n')).reverse

def Block.toCode (b : Block) : CodeBlock :=
  { code := String.ofList (withoutLineEnds b.body), language := String.ofList b.tag }

/-- The code blocks of a text, in order. -/
def blocks (text : String) : List CodeBlock := (found text.toList).map Block.toCode

end Orchestra.Markdown
