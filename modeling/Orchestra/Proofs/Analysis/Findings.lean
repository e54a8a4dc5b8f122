import Mathlib.Data.List.Forall2
import Orchestra.Analysis
import Orchestra.Proofs.Analysis.Lines

/-!
# Orchestra.Proofs.Analysis.Findings — which lines of a reply are findings

Every line that is not blank is sorted on its own, by the words in it and whatever their case; so the findings of a reply
are those of its parts, one after the other.  The three analyses differ in their words and in what they make of a line
(`sorts_classify`).
-/

namespace Orchestra

open Text

/-! ### The class of a line -/

/-- One of the words is in the line, in whatever case. -/
def Contains (words : List String) (l : List Char) : Prop := ∃ w ∈ words, w.toList <:+: l.flatMap caseFold

instance (words : List String) (l : List Char) : Decidable (Contains words l) :=
  inferInstanceAs (Decidable (∃ w ∈ words, w.toList <:+: l.flatMap caseFold))

/-- Something in the line is no blank. -/
def NotBlank (l : List Char) : Prop := ∃ c ∈ l, isSpace c = false

instance (l : List Char) : Decidable (NotBlank l) := inferInstanceAs (Decidable (∃ c ∈ l, isSpace c = false))

/-- The two classes of findings. -/
inductive FindingClass where
  | first | second
  deriving DecidableEq, Repr

/-- The class of a line by its words, if it has any of either class; the first class wins. -/
def classOf (first second : List String) (l : List Char) : Option FindingClass :=
  if Contains first l then some .first else if Contains second l then some .second else none

/-- The lines of a class that are not blank. -/
def linesOf (first second : List String) (k : FindingClass) (ls : List (List Char)) : List (List Char) :=
  (ls.filter fun l => NotBlank l).filter fun l => classOf first second l = some k

variable {first second words : List String} {k : FindingClass} {a b l : List Char}

theorem occurs_iff {word : List Char} (text : List Char) : occurs word text = true ↔ word <:+: text := by
  induction text with
  | nil => simp [occurs]
  | cons c text ih => rw [occurs, Bool.or_eq_true, List.isPrefixOf_iff_prefix, ih, List.infix_cons_iff]

theorem mentionsAny_ofChars (words : List String) (l : List Char) :
    (Line.ofChars l).mentionsAny words = decide (Contains words l) := by
  rw [Bool.eq_iff_iff, decide_eq_true_iff]
  simp [Line.mentionsAny, Line.mentions, Line.ofChars, occurs_iff, Contains]

theorem trim_isEmpty (l : List Char) : (!(trim l).isEmpty) = decide (NotBlank l) := by
  rw [Bool.eq_iff_iff, decide_eq_true_iff, Bool.not_eq_true', ← Bool.not_eq_true, List.isEmpty_iff, trim_eq_nil]
  simp [NotBlank]

/-- **The lines of the two classes** are told apart by their words. -/
theorem classify_eq (first second : List String) (text : String) :
    classify first second text =
      ((linesOf first second .first (lines text.toList)).map Line.ofChars,
        (linesOf first second .second (lines text.toList)).map Line.ofChars) := by
  have hall : Line.all text.toList = ((lines text.toList).filter fun l => NotBlank l).map Line.ofChars := by
    rw [Line.all, funext trim_isEmpty]
  rw [classify, hall, List.filter_map, List.filter_map, linesOf, linesOf]
  refine Prod.ext ?_ ?_ <;> refine congrArg (List.map _) (List.filter_congr fun l _ => ?_) <;>
    simp only [Function.comp_apply, mentionsAny_ofChars, classOf] <;> split <;> simp_all

/-! ### Lines and texts -/

theorem caseFold_toLower (c : Char) : caseFold c.toLower = caseFold c := by
  rcases toLower_cases c with h | ⟨hle, hge, h⟩
  · rw [h]
  · have hnot : ∀ n, n ≤ 122 → n ≠ 0x212a ∧ n ≠ 0x130 := by omega
    have hlower : c.toLower.toLower = c.toLower := by
      rcases toLower_cases c.toLower with h' | ⟨-, hge', -⟩
      · exact h'
      · omega
    obtain ⟨h₁, h₂⟩ := hnot c.toNat (by omega)
    obtain ⟨h₃, h₄⟩ := hnot c.toLower.toNat (by omega)
    rw [caseFold, caseFold, if_neg h₁, if_neg h₂, if_neg h₃, if_neg h₄, hlower]

theorem flatMap_caseFold_toLower (l : List Char) : (l.map Char.toLower).flatMap caseFold = l.flatMap caseFold := by
  simp only [List.flatMap_map, caseFold_toLower]

theorem contains_toLower (l : List Char) : Contains words (l.map Char.toLower) ↔ Contains words l := by
  rw [Contains, Contains, flatMap_caseFold_toLower]

theorem classOf_toLower (l : List Char) : classOf first second (l.map Char.toLower) = classOf first second l := by
  simp only [classOf, contains_toLower]

theorem notBlank_toLower (l : List Char) : NotBlank (l.map Char.toLower) ↔ NotBlank l := by
  simp [NotBlank, isSpace_toLower]

theorem linesOf_toLower (ls : List (List Char)) :
    linesOf first second k (ls.map (List.map Char.toLower)) =
      (linesOf first second k ls).map (List.map Char.toLower) := by
  simp only [linesOf, List.filter_map, Function.comp_def, classOf_toLower, notBlank_toLower]

/-- Between two texts a line end adds nothing that counts. -/
theorem linesOf_append (a b : List Char) :
    linesOf first second k (lines (a ++ '\n' :: b)) =
      linesOf first second k (lines a) ++ linesOf first second k (lines b) := by
  have hblank : ¬NotBlank [] := by simp [NotBlank]
  cases a with
  | nil =>
    have hlf : lines ('\n' :: b) = [] :: lines b := lines_end rfl fun h => absurd h (by decide)
    rw [List.nil_append, hlf, lines_nil]
    simp [linesOf, hblank]
  | cons c a =>
    obtain ⟨between, hbetween, hlines⟩ := lines_append (List.cons_ne_nil c a) b
    rw [hlines]
    rcases hbetween with rfl | rfl <;> simp [linesOf, hblank]

/-! ### Analyses -/

/-- An analysis makes findings of lines: it reports its two lists of findings besides the score, and they come from the
lines of their classes.  A finding says its line without the blanks at the ends. -/
structure Sorts {ρ α β : Type} (parse : String → Except Fault ρ) (report : Nat → List α → List β → String → ρ)
    (first second : List String) (issues : String → List α) (others : String → List β) (issue : α → String)
    (other : β → String) (severity : α → String) : Prop where
  reports : ∀ text, parse text = (score text).map fun n => report n (issues text) (others text) text
  /-- Every line is in the list of its class, if it is not blank, and no list has anything else. -/
  selects : ∀ (text : String) (ls : List (List Char)), Lined text.toList ls →
    List.Forall₂ (fun l i => Stripped l (issue i).toList) (linesOf first second .first ls) (issues text) ∧
    List.Forall₂ (fun l o => Stripped l (other o).toList) (linesOf first second .second ls) (others text)
  /-- The case of ASCII letters does not count. -/
  recased : ∀ text text' : String, text.toList.map Char.toLower = text'.toList.map Char.toLower →
    (issues text).map severity = (issues text').map severity ∧
    ∀ ls ls', Lined text.toList ls → Lined text'.toList ls' →
      (ls.map fun l => (decide (NotBlank l), classOf first second l)) =
        ls'.map fun l => (decide (NotBlank l), classOf first second l)
  /-- What is found in two texts is found in both together. -/
  appends : ∀ a b : String, issues (a ++ "\n" ++ b) = issues a ++ issues b ∧
    others (a ++ "\n" ++ b) = others a ++ others b

/-- **Sorting by words** makes findings of lines, whatever a finding says besides its line. -/
theorem sorts_classify {ρ α β : Type} {parse : String → Except Fault ρ} {report : Nat → List α → List β → String → ρ}
    {first second : List String} {found : Line → α} {foundOther : Line → β} {issue : α → String}
    {other : β → String} {severity : α → String}
    (hparse : ∀ text, parse text = (score text).map fun n =>
      report n ((classify first second text).1.map found) ((classify first second text).2.map foundOther) text)
    (hissue : ∀ l, issue (found l) = l.content) (hother : ∀ l, other (foundOther l) = l.content)
    (hseverity : ∀ l l', l.folded = l'.folded → severity (found l) = severity (found l')) :
    Sorts parse report first second (fun text => (classify first second text).1.map found)
      (fun text => (classify first second text).2.map foundOther) issue other severity := by
  have hstripped : ∀ l, Stripped l (Line.ofChars l).content.toList := fun l => by
    rw [Line.content, String.toList_ofList]
    exact stripped_trim l
  refine ⟨hparse, fun text ls h => ?_, fun text text' h => ?_, fun a b => ?_⟩
  · rw [lined_iff] at h
    subst h
    simp only [classify_eq, List.map_map, List.forall₂_map_right_iff, List.forall₂_same, Function.comp_apply, hissue,
      hother]
    exact ⟨fun l _ => hstripped l, fun l _ => hstripped l⟩
  · have hlines := congrArg lines h
    rw [lines_map_toLower, lines_map_toLower] at hlines
    constructor
    · have hfolded : ∀ l : List Char, severity (found (Line.ofChars (l.map Char.toLower))) =
          severity (found (Line.ofChars l)) := fun l => hseverity _ _ (flatMap_caseFold_toLower l)
      have hsame := congrArg (List.map (severity ∘ found ∘ Line.ofChars))
        (congrArg (linesOf first second .first) hlines)
      simpa only [linesOf_toLower, List.map_map, Function.comp_def, hfolded, classify_eq] using hsame
    · intro ls ls' hls hls'
      rw [lined_iff] at hls hls'
      subst hls hls'
      have hsame := congrArg (List.map fun l => (decide (NotBlank l), classOf first second l)) hlines
      simpa only [List.map_map, Function.comp_def, notBlank_toLower, classOf_toLower] using hsame
  · have htext : (a ++ "\n" ++ b).toList = a.toList ++ '\n' :: b.toList := by simp
    simp only [classify_eq, htext, linesOf_append, List.map_append, and_self]

namespace Review

def foundIssues (text : String) : List ReviewIssue := (classify issueWords suggestionWords text).1.map issue

def foundSuggestions (text : String) : List ReviewSuggestion :=
  (classify issueWords suggestionWords text).2.map suggestion

end Review

namespace Performance

def foundIssues (text : String) : List PerformanceIssue := (classify issueWords optimizationWords text).1.map issue

def foundOptimizations (text : String) : List Optimization :=
  (classify issueWords optimizationWords text).2.map optimization

end Performance

namespace Security

def foundVulnerabilities (text : String) : List Vulnerability :=
  (classify vulnerabilityWords adviceWords text).1.map vulnerability

def foundAdvice (text : String) : List SecurityAdvice := (classify vulnerabilityWords adviceWords text).2.map advice

end Security

/-- **The lines of a text** can be cut in one way only, and each of the three analyses sorts them one by one. -/
theorem ofText_sorts :
    (∀ text : String, ∃! ls, Lined text.toList ls) ∧
    Sorts Review.ofText Review.mk Review.issueWords Review.suggestionWords Review.foundIssues Review.foundSuggestions
      ReviewIssue.message ReviewSuggestion.message ReviewIssue.severity ∧
    Sorts Performance.ofText Performance.mk Performance.issueWords Performance.optimizationWords Performance.foundIssues
      Performance.foundOptimizations PerformanceIssue.message Optimization.description PerformanceIssue.severity ∧
    Sorts Security.ofText Security.mk Security.vulnerabilityWords Security.adviceWords Security.foundVulnerabilities
      Security.foundAdvice Vulnerability.description SecurityAdvice.description Vulnerability.severity := by
  refine ⟨fun text => ⟨_, lined_lines _, fun ls h => (lined_iff.mp h).symm⟩, ?_, ?_, ?_⟩
  · refine sorts_classify (fun text => ?_) (fun _ => rfl) (fun _ => rfl) fun l l' h => ?_
    · rw [Review.ofText]
      cases score text <;> rfl
    · rw [Review.issue, Review.issue, Line.mentions, Line.mentions, h]
  · refine sorts_classify (fun text => ?_) (fun _ => rfl) (fun _ => rfl) fun l l' h => rfl
    rw [Performance.ofText]
    cases score text <;> rfl
  · refine sorts_classify (fun text => ?_) (fun _ => rfl) (fun _ => rfl) fun l l' h => rfl
    rw [Security.ofText]
    cases score text <;> rfl

-- the CR at the end of the first line and the LF are one line end; a line with words of both classes is an issue
example :
    Review.foundIssues "Suggestion: none\r\n \x0b WARNING, a recommendation \u2028ok" =
      [⟨"warning", "WARNING, a recommendation"⟩] := by decide +kernel

end Orchestra
