import Mathlib.Data.List.TakeWhile
import Orchestra.Text.Space

/-!
# Orchestra.Proofs.Analysis.Lines — how a text falls into lines

There is one way to cut a text into lines (`lined_iff`), and a line without the blanks at its ends is what `trim` leaves
of it (`stripped_trim`).  A line end between two texts adds at most a blank line to those of the two (`lines_append`), and
the case of the letters `A` to `Z` has no say (`lines_map_toLower`).
-/

namespace Orchestra.Text

variable {c : Char} {a b l rest text : List Char} {ls : List (List Char)}

/-! ### Lines -/

/-- The characters end a line here; CR does so on its own only where no LF follows. -/
def EndsLine (e rest : List Char) : Prop :=
  e = ['\r', '\n'] ∨ ∃ c, e = [c] ∧ isLineEnd c = true ∧ (c = '\r' → rest.head? ≠ some '\n')

/-- A text cut into lines at their ends, which the last of them need not have. -/
inductive Lined : List Char → List (List Char) → Prop
  | nil : Lined [] []
  | last {l : List Char} : l ≠ [] → (∀ c ∈ l, isLineEnd c = false) → Lined l [l]
  | ended {l e rest : List Char} {ls : List (List Char)} : (∀ c ∈ l, isLineEnd c = false) → EndsLine e rest → Lined rest ls →
      Lined (l ++ (e ++ rest)) (l :: ls)

@[simp] theorem lines_nil : lines [] = [] := rfl

theorem lines_crlf (rest : List Char) : lines ('\r' :: '\n' :: rest) = [] :: lines rest := by
  rw [lines]

theorem lines_end (h : isLineEnd c = true) (hcr : c = '\r' → rest.head? ≠ some '\n') :
    lines (c :: rest) = [] :: lines rest := by
  rw [lines, if_pos h]
  rintro tail rfl rfl
  exact hcr rfl rfl

theorem lines_cons (h : isLineEnd c = false) (rest : List Char) :
    lines (c :: rest) = (c :: (lines rest).headD []) :: (lines rest).tail := by
  rw [lines, if_neg (Bool.eq_false_iff.mp h)]
  · cases lines rest <;> rfl
  · rintro tail rfl
    exact absurd h (by decide)

/-- A text begins with CR LF, with another line end, or with what belongs to its first line. -/
theorem lines_induction {motive : List Char → Prop} (nil : motive [])
    (crlf : ∀ rest, motive rest → motive ('\r' :: '\n' :: rest))
    (ended : ∀ c rest, isLineEnd c = true → (c = '\r' → rest.head? ≠ some '\n') → motive rest → motive (c :: rest))
    (cons : ∀ c rest, isLineEnd c = false → motive rest → motive (c :: rest)) (text : List Char) : motive text := by
  have hsingle : ∀ {c : Char} {rest : List Char}, (∀ tail, c = '\r' → rest = '\n' :: tail → False) →
      c = '\r' → rest.head? ≠ some '\n' := by
    intro c rest h hc hhead
    obtain ⟨tail, htail⟩ := List.head?_eq_some_iff.mp hhead
    exact h tail hc htail
  induction text using lines.induct with
  | case1 => exact nil
  | case2 rest ih => exact crlf rest ih
  | case3 c rest hcr h ih => exact ended c rest h (hsingle hcr) ih
  | case4 c rest _ h _ ih => exact cons c rest (Bool.eq_false_iff.mpr h) ih
  | case5 c rest _ h _ _ _ ih => exact cons c rest (Bool.eq_false_iff.mpr h) ih

theorem lines_ne_nil (h : text ≠ []) : lines text ≠ [] := by
  induction text using lines_induction with
  | nil => exact absurd rfl h
  | crlf rest => rw [lines_crlf]; exact List.cons_ne_nil _ _
  | ended c rest hc hcr => rw [lines_end hc hcr]; exact List.cons_ne_nil _ _
  | cons c rest hc => rw [lines_cons hc]; exact List.cons_ne_nil _ _

theorem lines_endsLine {e : List Char} (h : EndsLine e rest) : lines (e ++ rest) = [] :: lines rest := by
  rcases h with rfl | ⟨c, rfl, hc, hcr⟩
  · exact lines_crlf rest
  · exact lines_end hc hcr

/-- What has no line end in it comes before the first line of the rest. -/
theorem lines_unended (hl : ∀ c ∈ l, isLineEnd c = false) {first : List Char} (hrest : lines rest = first :: ls) :
    lines (l ++ rest) = (l ++ first) :: ls := by
  induction l with
  | nil => exact hrest
  | cons c l ih =>
    obtain ⟨hc, hl⟩ := List.forall_mem_cons.mp hl
    rw [List.cons_append, lines_cons hc, ih hl]
    rfl

theorem lines_last (hne : l ≠ []) (hl : ∀ c ∈ l, isLineEnd c = false) : lines l = [l] := by
  obtain ⟨init, c, rfl⟩ := List.eq_nil_or_concat l |>.resolve_left hne
  have hc : lines [c] = [[c]] := lines_cons (hl c (by simp)) []
  rw [List.concat_eq_append] at hl ⊢
  exact lines_unended (fun d hd => hl d (List.mem_append_left _ hd)) hc

theorem lined_lines (text : List Char) : Lined text (lines text) := by
  induction text using lines_induction with
  | nil => exact .nil
  | crlf rest ih =>
    rw [lines_crlf]
    exact .ended (l := []) (fun _ h => nomatch h) (.inl rfl) ih
  | ended c rest hc hcr ih =>
    rw [lines_end hc hcr]
    exact .ended (l := []) (fun _ h => nomatch h) (.inr ⟨c, rfl, hc, hcr⟩) ih
  | cons c rest hc ih =>
    rw [lines_cons hc]
    generalize lines rest = ls at ih ⊢
    cases ih with
    | nil => exact .last (List.cons_ne_nil c []) (List.forall_mem_cons.mpr ⟨hc, fun _ h => nomatch h⟩)
    | last _ hl => exact .last (List.cons_ne_nil c _) (List.forall_mem_cons.mpr ⟨hc, hl⟩)
    | ended hl he hrest => exact .ended (List.forall_mem_cons.mpr ⟨hc, hl⟩) he hrest

/-- **The lines of a text** are the only way to cut it into lines. -/
theorem lined_iff : Lined text ls ↔ lines text = ls := by
  refine ⟨fun h => ?_, fun h => h ▸ lined_lines text⟩
  induction h with
  | nil => rfl
  | last hne hl => exact lines_last hne hl
  | @ended l e rest ls hl he _ ih =>
    have hrest : lines (e ++ rest) = [] :: ls := by rw [lines_endsLine he, ih]
    rw [lines_unended hl hrest, List.append_nil]

/-- **A line end between two texts** leaves the lines of both as they are; a blank line comes between them where the first
text has ended its last line already. -/
theorem lines_append (ha : a ≠ []) (b : List Char) :
    ∃ between, (between = [] ∨ between = [[]]) ∧ lines (a ++ '\n' :: b) = lines a ++ between ++ lines b := by
  have hlf : lines ('\n' :: b) = [] :: lines b := lines_end rfl (fun h => absurd h (by decide))
  induction a using lines_induction with
  | nil => exact absurd rfl ha
  | crlf rest ih =>
    rw [List.cons_append, List.cons_append, lines_crlf, lines_crlf]
    cases rest with
    | nil => exact ⟨[[]], .inr rfl, by rw [List.nil_append, hlf]; rfl⟩
    | cons d rest =>
      obtain ⟨between, hbetween, heq⟩ := ih (List.cons_ne_nil _ _)
      exact ⟨between, hbetween, by rw [heq]; rfl⟩
  | ended c rest hc hcr ih =>
    rw [lines_end hc hcr]
    cases rest with
    | nil =>
      by_cases hr : c = '\r'
      · -- the CR and the line end become one
        subst hr
        exact ⟨[], .inl rfl, lines_crlf b⟩
      · exact ⟨[[]], .inr rfl, by
          rw [List.cons_append, List.nil_append, lines_end hc fun h => absurd h hr, hlf]; rfl⟩
    | cons d rest =>
      obtain ⟨between, hbetween, heq⟩ := ih (List.cons_ne_nil _ _)
      have hfollow : lines (c :: (d :: rest ++ '\n' :: b)) = [] :: lines (d :: rest ++ '\n' :: b) := lines_end hc hcr
      exact ⟨between, hbetween, by rw [List.cons_append, hfollow, heq]; rfl⟩
  | cons c rest hc ih =>
    rw [List.cons_append, lines_cons hc, lines_cons hc]
    cases rest with
    | nil => exact ⟨[], .inl rfl, by rw [List.nil_append, hlf]; rfl⟩
    | cons d rest =>
      obtain ⟨between, hbetween, heq⟩ := ih (List.cons_ne_nil _ _)
      obtain ⟨first, more, hlines⟩ := List.exists_cons_of_ne_nil (lines_ne_nil (List.cons_ne_nil d rest))
      exact ⟨between, hbetween, by rw [heq, hlines]; rfl⟩

/-! ### Blanks at the ends -/

/-- A part of a line with only blanks before and after it, and none at its own ends. -/
structure Stripped (line part : List Char) : Prop where
  inside : ∃ before after, line = before ++ part ++ after ∧ (∀ c ∈ before, isSpace c = true) ∧
    ∀ c ∈ after, isSpace c = true
  head : ∀ c ∈ part.head?, isSpace c = false
  last : ∀ c ∈ part.getLast?, isSpace c = false

theorem trim_eq_nil : trim l = [] ↔ ∀ c ∈ l, isSpace c = true := by
  rw [trim, List.reverse_eq_nil_iff, List.dropWhile_eq_nil_iff]
  constructor
  · intro h c hc
    rw [← List.takeWhile_append_dropWhile (p := isSpace) (l := l)] at hc
    rcases List.mem_append.mp hc with hc | hc
    · exact List.mem_takeWhile_imp hc
    · exact h c (List.mem_reverse.mpr hc)
  · intro h c hc
    exact h c ((List.dropWhile_sublist _).mem (List.mem_reverse.mp hc))

theorem head?_dropWhile {p : Char → Bool} (h : c ∈ (l.dropWhile p).head?) : p c = false := by
  have := List.head?_dropWhile_not p l
  rw [h] at this
  simpa using this

theorem stripped_trim (l : List Char) : Stripped l (trim l) := by
  have hend := List.takeWhile_append_dropWhile (p := isSpace) (l := (l.dropWhile isSpace).reverse)
  have hrest : l.dropWhile isSpace = trim l ++ ((l.dropWhile isSpace).reverse.takeWhile isSpace).reverse := by
    rw [trim, ← List.reverse_append, hend, List.reverse_reverse]
  refine ⟨⟨l.takeWhile isSpace, ((l.dropWhile isSpace).reverse.takeWhile isSpace).reverse, ?_, ?_, ?_⟩, ?_, ?_⟩
  · rw [List.append_assoc, ← hrest, List.takeWhile_append_dropWhile]
  · exact fun c hc => List.mem_takeWhile_imp hc
  · exact fun c hc => List.mem_takeWhile_imp (List.mem_reverse.mp hc)
  · intro c hc
    have hhead : c ∈ (l.dropWhile isSpace).head? := by
      rw [hrest, List.head?_append]
      rw [Option.mem_def] at hc
      rw [hc]
      rfl
    exact head?_dropWhile hhead
  · intro c hc
    rw [trim, List.getLast?_reverse] at hc
    exact head?_dropWhile hc

/-! ### Letters and their case -/

/-- Only the letters `A` to `Z` have another lower case. -/
theorem toLower_cases (c : Char) :
    c.toLower = c ∨ 65 ≤ c.toNat ∧ c.toNat ≤ 90 ∧ c.toLower.toNat = c.toNat + 32 := by
  unfold Char.toLower
  split
  · next h =>
    have hle : 65 ≤ c.toNat := UInt32.le_iff_toNat_le.mp h.1
    have hge : c.toNat ≤ 90 := UInt32.le_iff_toNat_le.mp h.2
    refine .inr ⟨hle, hge, ?_⟩
    show (c.val + 32).toNat = c.toNat + 32
    rw [UInt32.toNat_add]
    exact Nat.mod_eq_of_lt (show c.toNat + 32 < 2 ^ 32 by omega)
  · exact .inl rfl

theorem isLineEnd_toLower (c : Char) : isLineEnd c.toLower = isLineEnd c := by
  rcases toLower_cases c with h | ⟨hle, hge, h⟩
  · rw [h]
  · have hletters : ∀ n, 65 ≤ n → n ≤ 122 →
        n ∉ [0x0a, 0x0b, 0x0c, 0x0d, 0x1c, 0x1d, 0x1e, 0x85, 0x2028, 0x2029] := by
      intro n hle hge hmem
      simp only [List.mem_cons, List.not_mem_nil, or_false] at hmem
      omega
    rw [isLineEnd, isLineEnd, h, Bool.eq_iff_iff, List.contains_iff_mem, List.contains_iff_mem]
    exact iff_of_false (hletters _ (by omega) (by omega)) (hletters _ (by omega) (by omega))

theorem isSpace_toLower (c : Char) : isSpace c.toLower = isSpace c := by
  rcases toLower_cases c with h | ⟨hle, hge, h⟩
  · rw [h]
  · have hletters : ∀ n < 123, 65 ≤ n → spaceBoundaries.countP (· ≤ n) = 4 := by decide
    rw [isSpace, isSpace, flips, flips, h, hletters _ (by omega) (by omega), hletters _ (by omega) hle]

theorem toLower_eq_iff {d : Char} (hd : d.toNat < 65) : c.toLower = d ↔ c = d := by
  rcases toLower_cases c with h | ⟨hle, hge, h⟩
  · rw [h]
  · refine iff_of_false ?_ ?_
    · rintro rfl
      omega
    · rintro rfl
      omega

/-- Lower case leaves a text in its lines. -/
theorem lines_map_toLower (text : List Char) :
    lines (text.map Char.toLower) = (lines text).map (List.map Char.toLower) := by
  induction text using lines_induction with
  | nil => rfl
  | crlf rest ih =>
    have hcrlf : lines ('\r' :: '\n' :: rest.map Char.toLower) = [] :: lines (rest.map Char.toLower) := lines_crlf _
    rw [lines_crlf]
    exact hcrlf.trans (congrArg ([] :: ·) ih)
  | ended c rest hc hcr ih =>
    have hcr' : c.toLower = '\r' → (rest.map Char.toLower).head? ≠ some '\n' := by
      intro h hhead
      obtain ⟨d, hd, hlower⟩ := Option.map_eq_some_iff.mp (List.head?_map (l := rest) ▸ hhead)
      exact hcr ((toLower_eq_iff (by decide)).mp h) (hd.trans (congrArg some ((toLower_eq_iff (by decide)).mp hlower)))
    rw [lines_end hc hcr, List.map_cons, List.map_cons, lines_end (isLineEnd_toLower c ▸ hc) hcr', ih]
    rfl
  | cons c rest hc ih =>
    rw [lines_cons hc, List.map_cons, lines_cons (isLineEnd_toLower c ▸ hc), ih]
    cases lines rest <;> rfl

end Orchestra.Text
