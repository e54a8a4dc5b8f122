import Orchestra.Event

/-!
# Orchestra.Service.Assistant — what the assistant asks, and what it makes of the answer

Each task is one chat request or one edit request under a name of its own.  Its prompt is fixed text around what the
caller gave, and the answer is passed on whole, as its message only, or as a report.
-/

namespace Orchestra

/-- What is to be sent once the context is known. -/
inductive Ask where
  /-- Nothing: the context itself is wanted. -/
  | context
  | chat (message : String)
  | edit (path : String) (range : Range) (instruction : String) (options : Option EditOptions)
  deriving Repr

/-- What the caller gets of a merged result. -/
inductive Reading where
  | whole
  | message
  | report (analysis : Analysis)
  deriving DecidableEq, Repr

namespace Reading

def messageOf : Result → String
  | .chat r => r.message.getD ""
  | _ => ""

def read : Reading → Result → Except Fault Answer
  | whole, r => .ok (.result r)
  | message, r => .ok (.text (messageOf r))
  | report analysis, r => (analysis.ofText (messageOf r)).map .report

end Reading

/-- One task for the assistant. -/
structure Assignment where
  operation : String
  ask : Ask
  extras : Extras := .nothing
  reading : Reading
  deriving Repr

namespace Assignment

/-- A text that is there and not empty. -/
def filled (t : Option String) : Option String := t.filter (· != "")

def explain (code : String) (extras : Extras) : Assignment :=
  ⟨"explain_code", .chat ("Please explain this code:\n\n" ++ code), extras, .message⟩

def refactor (code instruction : String) : Assignment :=
  ⟨"refactor_code", .chat ("Please refactor this code according to the following instruction: " ++ instruction ++
    "\n\nCode:\n" ++ code), .nothing, .message⟩

def fixBug (code : String) (error : Option String) : Assignment :=
  let prompt := match filled error with
    | some e => "Please fix this bug in the code. Error: " ++ e ++ "\n\nCode:\n" ++ code
    | none => "Please identify and fix any bugs in this code:\n\n" ++ code
  ⟨"fix_bug", .chat prompt, .nothing, .message⟩

def generateTests (code : String) (framework : Option String) : Assignment :=
  let prompt := match filled framework with
    | some f => "Please generate tests for this code using " ++ f ++ ":\n\n" ++ code
    | none => "Please generate tests for this code:\n\n" ++ code
  ⟨"generate_tests", .chat prompt, .nothing, .message⟩

def generateDocumentation (code : String) (docType : Option String) : Assignment :=
  let prompt := match filled docType with
    | some t => "Please generate " ++ t ++ " documentation for this code:\n\n" ++ code
    | none => "Please generate documentation for this code:\n\n" ++ code
  ⟨"generate_documentation", .chat prompt, .nothing, .message⟩

def insertCode (code position : String) (extras : Extras) : Assignment :=
  ⟨"insert_code", .chat ("Please insert this code at the specified position: " ++ position ++
    "\n\nCode to insert:\n" ++ code), extras, .message⟩

def replaceCode (old new : String) (extras : Extras) : Assignment :=
  ⟨"replace_code", .chat ("Please replace this code:\n" ++ old ++ "\n\nWith this code:\n" ++ new), extras, .message⟩

def reviewCode (code : String) : Assignment :=
  ⟨"review_code", .chat ("Please review this code and provide a detailed analysis including issues, " ++
    "suggestions, and a score from 1-10:\n\n" ++ code), .nothing, .report .review⟩

def optimizePerformance (code : String) : Assignment :=
  ⟨"optimize_performance", .chat ("Please analyze this code for performance issues and provide optimization " ++
    "suggestions:\n\n" ++ code), .nothing, .report .performance⟩

def analyzeSecurity (code : String) : Assignment :=
  ⟨"analyze_security", .chat ("Please analyze this code for security vulnerabilities and provide " ++
    "recommendations:\n\n" ++ code), .nothing, .report .security⟩

def chat (message : String) (extras : Extras) : Assignment := ⟨"chat", .chat message, extras, .whole⟩

def chatWithFile (message : String) (file : FileContext) : Assignment :=
  ⟨"chat_with_file", .chat message, .changes [.file (some file)], .whole⟩

def chatWithSelection (message : String) (selection : Selection) : Assignment :=
  ⟨"chat_with_selection", .chat message, .changes [.selection (some selection)], .whole⟩

/-- Where an edit goes that names no file. -/
def untitledPath : String := "untitled://"

def editCode (instruction : String) (path : Option String) (range : Option Range) (options : Option EditOptions)
    (extras : Extras) : Assignment :=
  ⟨"edit_code", .edit ((filled path).getD untitledPath) (range.getD (Range.point 1 1)) instruction options, extras,
    .whole⟩

end Assignment

end Orchestra
