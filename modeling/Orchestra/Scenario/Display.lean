import Orchestra.Result.Record

/-!
# Orchestra.Scenario.Display — results as a debug hook is shown them

A result is shown with every field under its name and its texts cut.  A text that is cut says how much is gone; where that
number is too long to be written, nothing can be shown.
-/

namespace Orchestra.Scenario.Display

def unwritable : Complaint := ⟨.unwritable, nofun⟩

/-- The first `n` characters; a negative count leaves that many out at the end. -/
def firstChars (cs : List Char) (n : Int) : List Char :=
  if n < 0 then cs.take (cs.length - n.natAbs) else cs.take n.toNat

/-- A text longer than `limit` is cut, with a note on how much is gone. -/
def text (limit : Int) (s : String) : Except Complaint String :=
  let cs := s.toList
  if limit < cs.length then
    match (Number.int (cs.length - limit)).shown? with
    | none => .error unwritable
    | some gone => .ok (String.ofList (firstChars cs limit) ++ "... (truncated " ++ gone ++ " chars)")
  else .ok s

mutual

def value (limit : Int) : Value → Except Complaint Value
  | .text s => (text limit s).map .text
  | .list items => (values limit items).map .list
  | .object o => (entries limit o).map .object
  | v => .ok v

def values (limit : Int) : List Value → Except Complaint (List Value)
  | [] => .ok []
  | v :: rest => do return (← value limit v) :: (← values limit rest)

/-- The names of an object are kept whole. -/
def entries (limit : Int) : List (String × Value) → Except Complaint Object
  | [] => .ok []
  | (name, v) :: rest => do return (name, ← value limit v) :: (← entries limit rest)

end

def metadata (limit : Int) (m : Option Object) : Except Complaint (Option Object) := m.mapM (entries limit)

def completion (limit : Int) (c : Completion) : Except Complaint Completion := do
  return { c with text := ← text limit c.text, metadata := ← metadata limit c.metadata }

def codeBlock (limit : Int) (b : CodeBlock) : Except Complaint CodeBlock := do
  return { b with
    code := ← text limit b.code
    language := ← text limit b.language
    explanation := ← b.explanation.mapM (text limit) }

def codeEdit (limit : Int) (e : CodeEdit) : Except Complaint CodeEdit := do
  return { e with text := ← text limit e.text }

/-- The result with every text in it cut; names of enumerations and of metadata are kept. -/
def cut (limit : Int) : Result → Except Complaint Result
  | .completions r => do
    return .completions {
      completions := ← r.completions.mapM (completion limit)
      metadata := ← metadata limit r.metadata }
  | .chat r => do
    return .chat {
      message := ← r.message.mapM (text limit)
      codeBlocks := ← r.codeBlocks.mapM (codeBlock limit)
      suggestions := ← r.suggestions.mapM (text limit)
      metadata := ← metadata limit r.metadata }
  | .edits r => do
    return .edits {
      edits := ← r.edits.mapM (codeEdit limit)
      explanation := ← r.explanation.mapM (text limit)
      metadata := ← metadata limit r.metadata }

def result (limit : Int) (r : Result) : Except Complaint Value := (cut limit r).map Result.toValue

end Orchestra.Scenario.Display
