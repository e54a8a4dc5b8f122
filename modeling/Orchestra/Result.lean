import Orchestra.Context

/-!
# Orchestra.Result — what providers answer

One result type for each of the three kinds that fan out.  The score of a completion lies in `[0, 1]` by construction:
`Completion.new` is the only way to make one from a free number.
-/

namespace Orchestra

/-! ### Completions -/

/-- A number within `[0, 1]`. -/
def inUnit (n : Number) : Bool := n.value?.any fun x => decide (0 ≤ x) && decide (x ≤ 1)

structure Completion where
  text : String
  range : Range
  kind : CompletionKind
  score : Number
  metadata : Option Object
  score_inUnit : inUnit score = true
  deriving Repr

namespace Completion

def new (text : String) (range : Range) (kind : CompletionKind) (score : Number) (metadata : Option Object) :
    Except Fault Completion :=
  if h : inUnit score = true then .ok ⟨text, range, kind, score, metadata, h⟩ else .error (.scoreOutOfRange score)

/-- Completions with one key are the same suggestion. -/
def key (c : Completion) : String × Position := (c.text, c.range.start)

/-- The score as an exact number. -/
def rank (c : Completion) : Rat := c.score.value?.getD 0

end Completion

structure CompletionResult where
  completions : List Completion := []
  metadata : Option Object := some []
  deriving Repr

/-! ### Chat -/

structure CodeBlock where
  code : String
  language : String := ""
  range : Option Range := none
  explanation : Option String := none
  deriving DecidableEq, Repr, Inhabited

structure ChatResponse where
  message : Option String := some ""
  codeBlocks : List CodeBlock := []
  suggestions : List String := []
  metadata : Option Object := some []
  deriving Repr

/-! ### Edits -/

structure CodeEdit where
  range : Range
  text : String
  kind : EditKind
  deriving DecidableEq, Repr, Inhabited

structure CodeEditResult where
  edits : List CodeEdit := []
  explanation : Option String := some ""
  metadata : Option Object := some []
  deriving Repr

structure EditOptions where
  preserveFormatting : Bool := true
  includeComments : Bool := true
  style : String := "conservative"
  deriving DecidableEq, Repr, Inhabited

structure EditRequest where
  path : String
  range : Range
  instruction : String
  context : Context := {}
  options : Option EditOptions := none
  deriving Repr

/-- What is sent to the providers: a query, a message or an edit request. -/
inductive Payload where
  | text (s : String)
  | edit (request : EditRequest)
  deriving Repr

/-- What is sent, in words: of an edit request, its instruction. -/
def Payload.message : Payload → String
  | text s => s
  | edit request => request.instruction

/-! ### Results of any kind -/

inductive Result where
  | completions (r : CompletionResult)
  | chat (r : ChatResponse)
  | edits (r : CodeEditResult)
  deriving Repr

namespace Result

def completions? : Result → Option CompletionResult
  | completions r => some r
  | _ => none

def chat? : Result → Option ChatResponse
  | chat r => some r
  | _ => none

def edits? : Result → Option CodeEditResult
  | edits r => some r
  | _ => none

/-- What a provider answers that was told nothing else. -/
def emptyFor : Capability → Result
  | .codeCompletion => completions {}
  | .codeEdit => edits {}
  | _ => chat {}

end Result

end Orchestra
