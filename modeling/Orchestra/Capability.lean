/-!
# Orchestra.Capability — what a provider can be asked for

Eleven kinds of operation, of which three are answered by several providers at once, and the smaller enumerations that
stand in requests, results and configuration.
-/

namespace Orchestra

/-- A kind of operation that a provider may support. -/
inductive Capability where
  | codeCompletion
  | chat
  | codeEdit
  | explanation
  | refactoring
  | bugFix
  | testGeneration
  | documentation
  | codeReview
  | performanceOptimization
  | securityAnalysis
  deriving DecidableEq, Repr, Inhabited

namespace Capability

/-- In order of declaration. -/
def all : List Capability :=
  [.codeCompletion, .chat, .codeEdit, .explanation, .refactoring, .bugFix, .testGeneration, .documentation,
    .codeReview, .performanceOptimization, .securityAnalysis]

/-- The written form. -/
def value : Capability → String
  | codeCompletion => "codeCompletion"
  | chat => "chat"
  | codeEdit => "codeEdit"
  | explanation => "explanation"
  | refactoring => "refactoring"
  | bugFix => "bugFix"
  | testGeneration => "testGeneration"
  | documentation => "documentation"
  | codeReview => "codeReview"
  | performanceOptimization => "performanceOptimization"
  | securityAnalysis => "securityAnalysis"

/-- The name of the member among its declarations. -/
def member : Capability → String
  | codeCompletion => "CODE_COMPLETION"
  | chat => "CHAT"
  | codeEdit => "CODE_EDIT"
  | explanation => "EXPLANATION"
  | refactoring => "REFACTORING"
  | bugFix => "BUG_FIX"
  | testGeneration => "TEST_GENERATION"
  | documentation => "DOCUMENTATION"
  | codeReview => "CODE_REVIEW"
  | performanceOptimization => "PERFORMANCE_OPTIMIZATION"
  | securityAnalysis => "SECURITY_ANALYSIS"

/-- The name of the enumeration in messages. -/
def enumeration : String := "CapabilityKind"

def ofValue? (s : String) : Option Capability := all.find? fun k => k.value == s

/-- Several providers can serve one request of this kind; the other kinds are single chat round trips. -/
def fansOut : Capability → Bool
  | codeCompletion | chat | codeEdit => true
  | _ => false

end Capability

/-- What a completion inserts. -/
inductive CompletionKind where
  | function
  | variableName
  | classType
  | interface
  | importing
  | method
  | property
  | parameter
  | typeName
  | keyword
  | snippet
  deriving DecidableEq, Repr, Inhabited

namespace CompletionKind

/-- In order of declaration. -/
def all : List CompletionKind :=
  [.function, .variableName, .classType, .interface, .importing, .method, .property, .parameter, .typeName,
    .keyword, .snippet]

/-- The written form. -/
def value : CompletionKind → String
  | function => "function"
  | variableName => "variable"
  | classType => "class"
  | interface => "interface"
  | importing => "import"
  | method => "method"
  | property => "property"
  | parameter => "parameter"
  | typeName => "type"
  | keyword => "keyword"
  | snippet => "snippet"

/-- The name of the member among its declarations. -/
def member : CompletionKind → String
  | function => "FUNCTION"
  | variableName => "VARIABLE"
  | classType => "CLASS"
  | interface => "INTERFACE"
  | importing => "IMPORT"
  | method => "METHOD"
  | property => "PROPERTY"
  | parameter => "PARAMETER"
  | typeName => "TYPE"
  | keyword => "KEYWORD"
  | snippet => "SNIPPET"

/-- The name of the enumeration in messages. -/
def enumeration : String := "CompletionKind"

def ofValue? (s : String) : Option CompletionKind := all.find? fun k => k.value == s

end CompletionKind

/-- What an edit does to its range. -/
inductive EditKind where
  | insert
  | replace
  | delete
  | refactor
  deriving DecidableEq, Repr, Inhabited

namespace EditKind

/-- In order of declaration. -/
def all : List EditKind :=
  [.insert, .replace, .delete, .refactor]

/-- The written form. -/
def value : EditKind → String
  | insert => "insert"
  | replace => "replace"
  | delete => "delete"
  | refactor => "refactor"

/-- The name of the member among its declarations. -/
def member : EditKind → String
  | insert => "INSERT"
  | replace => "REPLACE"
  | delete => "DELETE"
  | refactor => "REFACTOR"

/-- The name of the enumeration in messages. -/
def enumeration : String := "EditKind"

def ofValue? (s : String) : Option EditKind := all.find? fun k => k.value == s

end EditKind

/-- How failures of single providers are treated: any fails the whole request, or only all together do. -/
inductive Policy where
  | strict
  | bestEffort
  deriving DecidableEq, Repr, Inhabited

namespace Policy

/-- In order of declaration. -/
def all : List Policy :=
  [.strict, .bestEffort]

/-- The written form. -/
def value : Policy → String
  | strict => "strict"
  | bestEffort => "best_effort"

/-- The name of the member among its declarations. -/
def member : Policy → String
  | strict => "STRICT"
  | bestEffort => "BEST_EFFORT"

/-- The name of the enumeration in messages. -/
def enumeration : String := "DispatchPolicy"

def ofValue? (s : String) : Option Policy := all.find? fun k => k.value == s

end Policy

end Orchestra
