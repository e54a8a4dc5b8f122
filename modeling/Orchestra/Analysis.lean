import Orchestra.Fault
import Orchestra.Text.Digit
import Orchestra.Text.Space

/-!
# Orchestra.Analysis — findings in a reply to an analysis request

Lines are sorted by keywords, regardless of case, and the score is the number after the first `score` that is followed
by one.  Each analysis has two classes of findings; a line with keywords of both belongs to the first.
-/

namespace Orchestra

/-! ### Lines and keywords -/

/-- A character without its case, as far as letters `a` to `z` can be reached: the sign for kelvin is a `k`, and the
capital dotted `I` falls apart into an `i` and its dot. -/
def caseFold (c : Char) : List Char :=
  if c.toNat = 0x212a then ['k']
  else if c.toNat = 0x130 then ['i', Char.ofNat 0x307]
  else [c.toLower]

/-- A line that is not blank: its text without blanks at the ends, and the same without case. -/
structure Line where
  text : List Char
  folded : List Char
  deriving DecidableEq, Repr

/-- The word occurs somewhere in the text. -/
def occurs (word : List Char) : List Char → Bool
  | [] => word.isEmpty
  | c :: cs => word.isPrefixOf (c :: cs) || occurs word cs

namespace Line

def ofChars (cs : List Char) : Line := ⟨Text.trim cs, cs.flatMap caseFold⟩

/-- The lines of a text that are not blank. -/
def all (text : List Char) : List Line := ((Text.lines text).filter fun l => !(Text.trim l).isEmpty).map ofChars

/-- A word occurs in the line, whatever its case. -/
def mentions (l : Line) (word : String) : Bool := occurs word.toList l.folded

def mentionsAny (l : Line) (words : List String) : Bool := words.any l.mentions

def content (l : Line) : String := String.ofList l.text

end Line

/-- The lines of the first class, and those of the second that are not of the first. -/
def classify (first second : List String) (text : String) : List Line × List Line :=
  let lines := Line.all text.toList
  (lines.filter (·.mentionsAny first), lines.filter fun l => !l.mentionsAny first && l.mentionsAny second)

/-! ### The score -/

def defaultScore : Nat := 5

/-- A letter of the word `score`, in either case; the long `s` is an `s` too. -/
def isScoreLetter (letter c : Char) : Bool := c.toLower == letter || letter == 's' && c.toNat == 0x17f

/-- What follows the word `score` at the beginning. -/
def afterLetters : List Char → List Char → Option (List Char)
  | [], cs => some cs
  | _ :: _, [] => none
  | l :: ls, c :: cs => if isScoreLetter l c then afterLetters ls cs else none

/-- The digits of a score that is given right here. -/
def scoreDigits? (cs : List Char) : Option (List Char) :=
  match afterLetters "score".toList cs with
  | none => none
  | some rest =>
    match (rest.dropWhile fun c => c == ':' || Text.isSpace c).takeWhile Text.isDigit with
    | [] => none
    | d :: ds => some (d :: ds)

/-- The digits of the first score that is given anywhere. -/
def firstScore? : List Char → Option (List Char)
  | [] => none
  | c :: cs =>
    match scoreDigits? (c :: cs) with
    | some ds => some ds
    | none => firstScore? cs

/-- The first score of a text; digits past the limit are not read. -/
def score (text : String) : Except Fault Nat :=
  match firstScore? text.toList with
  | none => .ok defaultScore
  | some ds => if Number.digitLimit < ds.length then .error (.tooManyDigits ds.length) else .ok (Text.natOfDigits ds)

/-! ### Review -/

structure ReviewIssue where
  severity : String
  message : String
  deriving DecidableEq, Repr

structure ReviewSuggestion where
  message : String
  priority : String
  impact : String
  deriving DecidableEq, Repr

structure Review where
  score : Nat
  issues : List ReviewIssue
  suggestions : List ReviewSuggestion
  summary : String
  deriving DecidableEq, Repr

namespace Review

def issueWords : List String := ["error", "warning", "issue"]

def suggestionWords : List String := ["suggestion", "recommendation"]

def issue (l : Line) : ReviewIssue := ⟨if l.mentions "error" then "error" else "warning", l.content⟩

def suggestion (l : Line) : ReviewSuggestion := ⟨l.content, "medium", "Improves code quality"⟩

def ofText (text : String) : Except Fault Review := do
  let (issues, suggestions) := classify issueWords suggestionWords text
  return ⟨← Orchestra.score text, issues.map issue, suggestions.map suggestion, text⟩

end Review

/-! ### Performance -/

structure PerformanceIssue where
  severity : String
  message : String
  impact : String
  suggestion : String
  deriving DecidableEq, Repr

structure Optimization where
  description : String
  implementation : String
  expectedImprovement : String
  deriving DecidableEq, Repr

structure Performance where
  score : Nat
  issues : List PerformanceIssue
  optimizations : List Optimization
  summary : String
  deriving DecidableEq, Repr

namespace Performance

def issueWords : List String := ["performance", "slow", "inefficient"]

def optimizationWords : List String := ["optimize", "improve"]

def issue (l : Line) : PerformanceIssue := ⟨"medium", l.content, "Reduces performance", "Consider optimization"⟩

def optimization (l : Line) : Optimization :=
  ⟨l.content, "Manual implementation required", "Performance improvement"⟩

def ofText (text : String) : Except Fault Performance := do
  let (issues, optimizations) := classify issueWords optimizationWords text
  return ⟨← Orchestra.score text, issues.map issue, optimizations.map optimization, text⟩

end Performance

/-! ### Security -/

structure Vulnerability where
  severity : String
  type : String
  description : String
  mitigation : String
  deriving DecidableEq, Repr

structure SecurityAdvice where
  description : String
  implementation : String
  priority : String
  deriving DecidableEq, Repr

structure Security where
  score : Nat
  vulnerabilities : List Vulnerability
  recommendations : List SecurityAdvice
  summary : String
  deriving DecidableEq, Repr

namespace Security

def vulnerabilityWords : List String := ["vulnerability", "security", "risk"]

def adviceWords : List String := ["secure", "protect"]

def vulnerability (l : Line) : Vulnerability := ⟨"medium", "General security issue", l.content, "Review and fix"⟩

def advice (l : Line) : SecurityAdvice := ⟨l.content, "Manual implementation required", "medium"⟩

def ofText (text : String) : Except Fault Security := do
  let (vulnerabilities, recommendations) := classify vulnerabilityWords adviceWords text
  return ⟨← Orchestra.score text, vulnerabilities.map vulnerability, recommendations.map advice, text⟩

end Security

/-! ### All three -/

inductive Analysis where
  | review | performance | security
  deriving DecidableEq, Repr

inductive Report where
  | review (r : Review)
  | performance (r : Performance)
  | security (r : Security)
  deriving DecidableEq, Repr

namespace Analysis

def ofText (a : Analysis) (text : String) : Except Fault Report :=
  match a with
  | review => (Review.ofText text).map .review
  | performance => (Performance.ofText text).map .performance
  | security => (Security.ofText text).map .security

end Analysis

end Orchestra
