import Mathlib.Data.List.Induction
import Mathlib.Data.Nat.Digits.Defs
import Orchestra.Proofs.Analysis.Findings

/-!
# Orchestra.Proofs.Analysis.Scores — the first score that a reply gives

A text gives a score where the word `score` is followed by colons and blanks, if any, and by digits (`Gives`).  No digit
is a colon or a blank, so there is one way to read the digits of a place, and the scan from left to right stops at the
first place (`firstScore?_eq_some`).  Every analysis reads this score or, where none is given, takes the default; only a
number of more digits than are read as one makes it fail (`ofText_reads`).
-/

namespace Orchestra

open Text

/-! ### Places that give a score -/

/-- Any of these characters is read as the letter of `score` at its place. -/
def scoreLetters : List (List Char) := [['s', 'S', 'ſ'], ['c', 'C'], ['o', 'O'], ['r', 'R'], ['e', 'E']]

/-- The word `score` in any case, also with a long `s`. -/
def ScoreWord (word : List Char) : Prop := List.Forall₂ (fun c letters => c ∈ letters) word scoreLetters

/-- What may stand between the word and the digits. -/
def InGap (c : Char) : Prop := c = ':' ∨ isSpace c = true

/-- The text begins with a score that these digits are, all that follow one another there. -/
def Gives (text digits : List Char) : Prop :=
  digits ≠ [] ∧ (∀ c ∈ digits, isDigit c = true) ∧
    ∃ word gap rest, text = word ++ (gap ++ (digits ++ rest)) ∧ ScoreWord word ∧ (∀ c ∈ gap, InGap c) ∧
      ∀ c ∈ rest.head?, isDigit c = false

/-- These are the digits of the leftmost score in the text. -/
def GivesFirst (text digits : List Char) : Prop :=
  ∃ before here, text = before ++ here ∧ Gives here digits ∧
    ∀ sooner later other, text = sooner ++ later → Gives later other → before.length ≤ sooner.length

variable {c : Char} {text digits digits' rest word letters : List Char}

/-! ### The word -/

/-- A letter is the lower case of itself and of its capital only. -/
theorem toLower_eq_lower {lower upper : Char} (hnat : lower.toNat = upper.toNat + 32) (hlower : lower.toLower = lower)
    (hupper : upper.toLower = lower) : c.toLower = lower ↔ c = lower ∨ c = upper := by
  constructor
  · intro h
    rcases toLower_cases c with hc | ⟨-, -, hc⟩
    · exact .inl (hc.symm.trans h)
    · refine .inr (Char.toNat_inj.mp ?_)
      rw [h] at hc
      omega
  · rintro (rfl | rfl)
    · exact hlower
    · exact hupper

theorem isScoreLetter_s : isScoreLetter 's' c = true ↔ c ∈ ['s', 'S', 'ſ'] := by
  have hlong : c.toNat = 0x17f ↔ c = 'ſ' := ⟨fun h => Char.toNat_inj.mp h, fun h => h ▸ rfl⟩
  have hcase : c.toLower = 's' ↔ c = 's' ∨ c = 'S' := toLower_eq_lower rfl rfl rfl
  simp [isScoreLetter, hcase, hlong, or_assoc]

theorem isScoreLetter_of_ne {lower upper : Char} (hs : lower ≠ 's') (hnat : lower.toNat = upper.toNat + 32)
    (hlower : lower.toLower = lower) (hupper : upper.toLower = lower) :
    isScoreLetter lower c = true ↔ c ∈ [lower, upper] := by
  have hcase : c.toLower = lower ↔ c = lower ∨ c = upper := toLower_eq_lower hnat hlower hupper
  simp [isScoreLetter, hcase, hs]

theorem scoreWord_iff :
    List.Forall₂ (fun c letter => isScoreLetter letter c = true) word "score".toList ↔ ScoreWord word := by
  have hc : ∀ c, isScoreLetter 'c' c = true ↔ c ∈ ['c', 'C'] := fun _ =>
    isScoreLetter_of_ne (by decide) rfl rfl rfl
  have ho : ∀ c, isScoreLetter 'o' c = true ↔ c ∈ ['o', 'O'] := fun _ =>
    isScoreLetter_of_ne (by decide) rfl rfl rfl
  have hr : ∀ c, isScoreLetter 'r' c = true ↔ c ∈ ['r', 'R'] := fun _ =>
    isScoreLetter_of_ne (by decide) rfl rfl rfl
  have he : ∀ c, isScoreLetter 'e' c = true ↔ c ∈ ['e', 'E'] := fun _ =>
    isScoreLetter_of_ne (by decide) rfl rfl rfl
  have hletters : "score".toList = ['s', 'c', 'o', 'r', 'e'] := rfl
  rw [hletters, ScoreWord, scoreLetters]
  simp only [List.forall₂_cons_right_iff, isScoreLetter_s, hc, ho, hr, he, List.forall₂_nil_right_iff]

theorem afterLetters_eq_some : afterLetters letters text = some rest ↔
    ∃ word, text = word ++ rest ∧ List.Forall₂ (fun c letter => isScoreLetter letter c = true) word letters := by
  induction letters generalizing text with
  | nil => simp only [afterLetters, Option.some_inj, List.forall₂_nil_right_iff, exists_eq_right, List.nil_append]
  | cons letter letters ih =>
    cases text with
    | nil =>
      refine iff_of_false nofun ?_
      rintro ⟨word, htext, hword⟩
      rw [(List.append_eq_nil_iff.mp htext.symm).1] at hword
      cases hword
    | cons c text =>
      rw [afterLetters]
      split
      · next hc =>
        rw [ih]
        constructor
        · rintro ⟨word, rfl, hword⟩
          exact ⟨c :: word, rfl, .cons hc hword⟩
        · rintro ⟨_, htext, _ | ⟨-, hword⟩⟩
          exact ⟨_, (List.cons.inj htext).2, hword⟩
      · next hc =>
        refine iff_of_false nofun ?_
        rintro ⟨_, htext, _ | ⟨hd, -⟩⟩
        rw [(List.cons.inj htext).1] at hc
        exact hc hd

/-! ### The digits -/

/-- No digit is a colon or a blank: none of the ranges of digits meets the blanks. -/
theorem not_inGap_of_isDigit (h : isDigit c = true) : ¬ InGap c := by
  have hapart : ∀ z ∈ digitZeros, ∀ i < 10,
      z + i ≠ ':'.toNat ∧ spaceBoundaries.countP (· ≤ z + i) % 2 = 0 := by decide +kernel
  obtain ⟨v, hv⟩ := Option.isSome_iff_exists.mp h
  obtain ⟨z, hfind, -⟩ := Option.map_eq_some_iff.mp hv
  have hmem := List.mem_of_find?_eq_some hfind
  have hrange := List.find?_some hfind
  simp only [Bool.and_eq_true, decide_eq_true_eq] at hrange
  obtain ⟨hcolon, hspace⟩ := hapart z hmem (c.toNat - z) (by omega)
  rw [Nat.add_sub_cancel' hrange.1] at hcolon hspace
  rintro (rfl | hblank)
  · exact hcolon rfl
  · rw [isSpace, flips, hspace] at hblank
    cases hblank

theorem inGap_iff : (c == ':' || isSpace c) = true ↔ InGap c := by
  rw [InGap, Bool.or_eq_true, beq_iff_eq]

/-- What a run of characters of one class is followed by. -/
theorem dropWhile_of_head {p : Char → Bool} (h : ∀ c ∈ rest.head?, p c = false) : rest.dropWhile p = rest := by
  cases rest with
  | nil => rfl
  | cons c rest => exact List.dropWhile_cons_of_neg (Bool.eq_false_iff.mp (h c rfl))

theorem takeWhile_of_head {p : Char → Bool} (h : ∀ c ∈ rest.head?, p c = false) : rest.takeWhile p = [] := by
  cases rest with
  | nil => rfl
  | cons c rest => exact List.takeWhile_cons_of_neg (Bool.eq_false_iff.mp (h c rfl))

theorem scoreDigits?_of_rest (h : afterLetters "score".toList text = some rest) :
    scoreDigits? text = some digits ↔
      digits ≠ [] ∧ (rest.dropWhile fun c => c == ':' || isSpace c).takeWhile isDigit = digits := by
  rw [scoreDigits?, h]
  dsimp only
  split
  · next hnil => rw [hnil]; exact iff_of_false nofun fun h => h.1 h.2.symm
  · next hcons => rw [hcons, Option.some_inj]; exact ⟨fun h => ⟨h ▸ List.cons_ne_nil _ _, h⟩, And.right⟩

/-- **A place is read** as the score that it gives, if it gives one. -/
theorem scoreDigits?_eq_some : scoreDigits? text = some digits ↔ Gives text digits := by
  constructor
  · intro h
    obtain ⟨rest, hrest⟩ : ∃ rest, afterLetters "score".toList text = some rest := by
      refine Option.ne_none_iff_exists'.mp fun hnone => ?_
      rw [scoreDigits?, hnone] at h
      cases h
    obtain ⟨hne, hdigits⟩ := (scoreDigits?_of_rest hrest).mp h
    obtain ⟨word, rfl, hword⟩ := afterLetters_eq_some.mp hrest
    refine ⟨hne, fun c hc => List.mem_takeWhile_imp (hdigits ▸ hc), word, rest.takeWhile _,
      (rest.dropWhile fun c => c == ':' || isSpace c).dropWhile isDigit, ?_, scoreWord_iff.mp hword,
      fun c hc => inGap_iff.mp (List.mem_takeWhile_imp (p := fun c => c == ':' || isSpace c) hc),
      fun c => head?_dropWhile⟩
    rw [← hdigits, List.takeWhile_append_dropWhile, List.takeWhile_append_dropWhile]
  · rintro ⟨hne, hdigits, word, gap, rest, rfl, hword, hgap, hrest⟩
    have hafter : afterLetters "score".toList (word ++ (gap ++ (digits ++ rest))) = some (gap ++ (digits ++ rest)) :=
      afterLetters_eq_some.mpr ⟨word, rfl, scoreWord_iff.mpr hword⟩
    refine (scoreDigits?_of_rest hafter).mpr ⟨hne, ?_⟩
    -- the gap ends where the digits begin, since no digit belongs in it
    have hhead : ∀ c ∈ (digits ++ rest).head?, (c == ':' || isSpace c) = false := by
      intro c hc
      rw [List.head?_append_of_ne_nil _ hne] at hc
      exact Bool.eq_false_iff.mpr (mt inGap_iff.mp (not_inGap_of_isDigit (hdigits c (List.mem_of_mem_head? hc))))
    rw [List.dropWhile_append_of_pos fun c hc => inGap_iff.mpr (hgap c hc), dropWhile_of_head hhead,
      List.takeWhile_append_of_pos hdigits, takeWhile_of_head hrest, List.append_nil]

theorem Gives.digits_eq (h : Gives text digits) (h' : Gives text digits') : digits = digits' :=
  Option.some.inj ((scoreDigits?_eq_some.mpr h).symm.trans (scoreDigits?_eq_some.mpr h'))

/-! ### The first place -/

theorem not_gives_nil : ¬ Gives [] digits := by
  rintro ⟨hne, -, word, gap, rest, h, -⟩
  exact hne (List.append_eq_nil_iff.mp (List.append_eq_nil_iff.mp (List.append_eq_nil_iff.mp h.symm).2).2).1

theorem givesFirst_here (h : Gives text digits) : GivesFirst text digits' ↔ digits' = digits := by
  constructor
  · rintro ⟨before, here, rfl, hhere, hfirst⟩
    have hbefore : before = [] := List.length_eq_zero_iff.mp (Nat.le_zero.mp (hfirst [] _ _ rfl h))
    subst hbefore
    exact hhere.digits_eq h
  · rintro rfl
    exact ⟨[], text, rfl, h, fun _ _ _ _ _ => Nat.zero_le _⟩

/-- Where no score is given here, the first one is the first of the rest. -/
theorem givesFirst_cons (hnone : ∀ other, ¬ Gives (c :: text) other) :
    GivesFirst (c :: text) digits ↔ GivesFirst text digits := by
  constructor
  · rintro ⟨_ | ⟨d, before⟩, here, htext, hhere, hfirst⟩
    · rw [List.nil_append] at htext
      exact absurd (htext ▸ hhere) (hnone _)
    · obtain ⟨rfl, rfl⟩ := List.cons.inj htext
      refine ⟨before, here, rfl, hhere, fun sooner later other hsplit hlater => ?_⟩
      exact Nat.le_of_succ_le_succ (hfirst (c :: sooner) later other (congrArg (c :: ·) hsplit) hlater)
  · rintro ⟨before, here, rfl, hhere, hfirst⟩
    refine ⟨c :: before, here, rfl, hhere, fun sooner later other hsplit hlater => ?_⟩
    cases sooner with
    | nil =>
      rw [List.nil_append] at hsplit
      exact absurd (hsplit ▸ hlater) (hnone _)
    | cons d sooner => exact Nat.succ_le_succ (hfirst sooner later other (List.cons.inj hsplit).2 hlater)

/-- **The first score** that is found is the leftmost one. -/
theorem firstScore?_eq_some : firstScore? text = some digits ↔ GivesFirst text digits := by
  induction text with
  | nil =>
    refine iff_of_false nofun ?_
    rintro ⟨before, here, h, hhere, -⟩
    exact not_gives_nil ((List.append_eq_nil_iff.mp h.symm).2 ▸ hhere)
  | cons c text ih =>
    rw [firstScore?]
    split
    · next hhere => rw [givesFirst_here (scoreDigits?_eq_some.mp hhere), Option.some_inj, eq_comm]
    · next hnone =>
      refine ih.trans (givesFirst_cons fun other hother => ?_).symm
      rw [scoreDigits?_eq_some.mpr hother] at hnone
      cases hnone

theorem not_gives_of_firstScore? (h : firstScore? text = none) {before here : List Char}
    (htext : text = before ++ here) : ¬ Gives here digits := by
  induction text generalizing before with
  | nil => rw [(List.append_eq_nil_iff.mp htext.symm).2]; exact not_gives_nil
  | cons c text ih =>
    rw [firstScore?] at h
    split at h
    · cases h
    · next hnone =>
      cases before with
      | nil =>
        intro hhere
        rw [List.nil_append] at htext
        rw [← htext, ← scoreDigits?_eq_some, hnone] at hhere
        cases hhere
      | cons d before => exact ih h (List.cons.inj htext).2

/-! ### Reading a score -/

/-- Digits are read as a decimal number, the most significant first. -/
theorem natOfDigits_eq (h : ∀ c ∈ digits, isDigit c = true) :
    natOfDigits digits = Nat.ofDigits 10 (digits.filterMap digit?).reverse := by
  induction digits using List.reverseRecOn with
  | nil => rfl
  | append_singleton digits c ih =>
    obtain ⟨v, hv⟩ := Option.isSome_iff_exists.mp (h c (by simp))
    have hinit := ih fun d hd => h d (List.mem_append_left _ hd)
    have hstep : natOfDigits (digits ++ [c]) = 10 * natOfDigits digits + (digit? c).getD 0 := List.foldl_concat ..
    rw [hstep, hinit, List.filterMap_append, List.filterMap_cons_some hv, List.filterMap_nil, List.reverse_concat,
      Nat.ofDigits_cons, hv, Option.getD_some, Nat.add_comm]

namespace Report

/-- The analysis that the report is of. -/
def analysis : Report → Analysis
  | review _ => .review
  | performance _ => .performance
  | security _ => .security

def score : Report → Nat
  | review r => r.score
  | performance r => r.score
  | security r => r.score

def summary : Report → String
  | review r => r.summary
  | performance r => r.summary
  | security r => r.summary

end Report

/-- What an analysis makes of a text: a report with the whole text as its summary. -/
inductive Analysis.Reads (a : Analysis) (text : String) : Except Fault Report → Prop
  /-- Its score is the first that the text gives. -/
  | scored {r : Report} {digits : List Char} (analysis : r.analysis = a) (summary : r.summary = text)
      (first : GivesFirst text.toList digits) (short : digits.length ≤ Number.digitLimit)
      (score : r.score = Nat.ofDigits 10 (digits.filterMap digit?).reverse) : a.Reads text (.ok r)
  /-- The text gives no score anywhere. -/
  | unscored {r : Report} (analysis : r.analysis = a) (summary : r.summary = text)
      (none : ∀ before here digits, text.toList = before ++ here → ¬ Gives here digits) (score : r.score = 5) :
      a.Reads text (.ok r)
  /-- The first score has more digits than are read as one number. -/
  | overlong {digits : List Char} (first : GivesFirst text.toList digits) (long : Number.digitLimit < digits.length) :
      a.Reads text (.error (.tooManyDigits digits.length))

/-- A text comes to a report once its score is read. -/
theorem Analysis.ofText_eq (a : Analysis) (text : String) :
    ∃ report : Nat → Report, a.ofText text = (score text).map report ∧
      ∀ n, (report n).analysis = a ∧ (report n).summary = text ∧ (report n).score = n := by
  cases a with
  | review =>
    refine ⟨fun n => .review ⟨n, Review.foundIssues text, Review.foundSuggestions text, text⟩, ?_,
      fun n => ⟨rfl, rfl, rfl⟩⟩
    rw [ofText, Review.ofText]
    cases Orchestra.score text <;> rfl
  | performance =>
    refine ⟨fun n => .performance ⟨n, Performance.foundIssues text, Performance.foundOptimizations text, text⟩, ?_,
      fun n => ⟨rfl, rfl, rfl⟩⟩
    rw [ofText, Performance.ofText]
    cases Orchestra.score text <;> rfl
  | security =>
    refine ⟨fun n => .security ⟨n, Security.foundVulnerabilities text, Security.foundAdvice text, text⟩, ?_,
      fun n => ⟨rfl, rfl, rfl⟩⟩
    rw [ofText, Security.ofText]
    cases Orchestra.score text <;> rfl

/-- **Every text is read** by every analysis. -/
theorem Analysis.ofText_reads (a : Analysis) (text : String) : a.Reads text (a.ofText text) := by
  obtain ⟨report, heq, hreport⟩ := a.ofText_eq text
  rw [heq, Orchestra.score]
  split
  · next hnone =>
    obtain ⟨hanalysis, hsummary, hscore⟩ := hreport defaultScore
    exact .unscored hanalysis hsummary (fun _ _ _ => not_gives_of_firstScore? hnone) hscore
  · next digits hsome =>
    have hfirst := firstScore?_eq_some.mp hsome
    split
    · next hlong => exact .overlong hfirst hlong
    · next hshort =>
      obtain ⟨hanalysis, hsummary, hscore⟩ := hreport (natOfDigits digits)
      obtain ⟨before, here, -, hhere, -⟩ := hfirst
      exact .scored hanalysis hsummary (firstScore?_eq_some.mp hsome) (Nat.le_of_not_lt hshort)
        (hscore.trans (natOfDigits_eq hhere.2.1))

end Orchestra
