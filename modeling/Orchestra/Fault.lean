import Orchestra.Capability
import Orchestra.Value

/-!
# Orchestra.Fault — why an operation failed

A fault is a cause.  `Fault.label` is the name under which it is reported, `Fault.message` its text, and
`Fault.retryable` whether trying again may help: only providers say so, and a wrapped failure keeps the answer.
-/

namespace Orchestra

/-- The classes of failure that providers, hooks and listeners report on their own. -/
inductive FaultClass where
  | value | type | runtime | os | overflow
  | llm | rateLimit | authentication | network | contextLength | quotaExceeded
  deriving DecidableEq, Repr, Inhabited

namespace FaultClass

def label : FaultClass → String
  | value => "ValueError"
  | type => "TypeError"
  | runtime => "RuntimeError"
  | os => "OSError"
  | overflow => "OverflowError"
  | llm => "LLMError"
  | rateLimit => "RateLimitError"
  | authentication => "AuthenticationError"
  | network => "NetworkError"
  | contextLength => "ContextLengthError"
  | quotaExceeded => "QuotaExceededError"

end FaultClass

inductive Fault where
  /-- A failure that came from outside, with its own text. -/
  | outside (reported : FaultClass) (text : String) (retryable : Bool)
  /-- The task that was at work has been cancelled. -/
  | interrupted
  /-- A failure of the library with no further cause. -/
  | plain (text : String)
  | noProviders (kind : Capability)
  | providerFailed (provider : String) (kind : Capability) (cause : Fault)
  /-- A cancellation token fired. -/
  | cancelled (operation text : Option String)
  /-- The kind has no fan-out, or (with a text) a provider does not declare it. -/
  | unsupported (kind : Capability) (text : Option String)
  | duplicateProvider (provider : String) (kind : Capability)
  /-- A context update names fields that no context has. -/
  | unknownFields (fields : List String)
  | scoreOutOfRange (score : Number)
  | notAMember (given enumeration : String)
  | historyLimit (limit : Int)
  /-- The history is to hold more contexts than can be counted in a machine word. -/
  | historyTooLong
  /-- A text that should hold a whole number does not. -/
  | notWhole (given : String)
  | tooManyDigits (count : Nat)
  /-- A whole number is too long to be written. -/
  | unwritable
  /-- A whole number is wanted of a value that is neither a number nor a text. -/
  | notNumeric (given : String)
  | wholeOfNan
  | wholeOfInfinity
  | bridgeDisposed (name : String)
  deriving DecidableEq, Inhabited, Repr

namespace Fault

/-- A text that is there and not empty. -/
def givenText (t : Option String) : Option String := t.filter (· != "")

/-- What a given value that is not a number is shown as, at most. -/
def shownLimit : Nat := 200

def label : Fault → String
  | outside c _ _ => c.label
  | interrupted => "CancelledError"
  | plain _ => "AiCoreError"
  | noProviders _ => "NoProvidersRegisteredError"
  | providerFailed _ _ _ => "ProviderFailureError"
  | cancelled _ _ => "CancelledOperationError"
  | unsupported _ _ => "UnsupportedCapabilityError"
  | duplicateProvider _ _ => "DuplicateProviderError"
  | unknownFields _ => "InvalidContextUpdateError"
  | scoreOutOfRange _ | notAMember _ _ | historyLimit _ | notWhole _ | tooManyDigits _ | unwritable | wholeOfNan =>
    "ValueError"
  | notNumeric _ => "TypeError"
  | wholeOfInfinity => "OverflowError"
  | historyTooLong => "OverflowError"
  | bridgeDisposed _ => "RuntimeError"

/-- What is said of a whole number of too many digits. -/
def digitsMessage (count : String) : String :=
  "Exceeds the limit (" ++ toString Number.digitLimit ++ " digits) for integer string conversion" ++ count ++
    "; use sys.set_int_max_str_digits() to increase the limit"

/-- A sentence that ends with a number; it cannot be said of one that is too long. -/
def sentence (start : String) (n : Number) : String := (n.shown?.map (start ++ ·)).getD (digitsMessage "")

def message : Fault → String
  | outside _ text _ => text
  | interrupted => ""
  | plain text => text
  | noProviders kind => "No AI providers registered for " ++ kind.value
  | providerFailed provider kind cause =>
    "Provider '" ++ provider ++ "' failed during " ++ kind.value ++ ": " ++ cause.message
  | cancelled operation text =>
    match givenText text, givenText operation with
    | some t, _ => t
    | none, some o => "Operation '" ++ o ++ "' was cancelled"
    | none, none => "Operation was cancelled"
  | unsupported kind text =>
    (givenText text).getD ("Capability '" ++ kind.value ++ "' has no multi-provider dispatch")
  | duplicateProvider provider kind => "Provider '" ++ provider ++ "' is already registered for " ++ kind.value
  | unknownFields fields => "Unknown context field(s): " ++ ", ".intercalate fields
  | scoreOutOfRange score => sentence "Completion score must be within [0, 1], got " score
  | notAMember given enumeration => given ++ " is not a valid " ++ enumeration
  | historyLimit limit => sentence "history_limit must be >= 1, got " (.int limit)
  | historyTooLong => "Python int too large to convert to C ssize_t"
  | notWhole given =>
    "invalid literal for int() with base 10: " ++ String.ofList ((Text.quoted given).toList.take shownLimit)
  | tooManyDigits count => digitsMessage (": value has " ++ toString count ++ " digits")
  | unwritable => digitsMessage ""
  | notNumeric given =>
    "int() argument must be a string, a bytes-like object or a real number, not '" ++ given ++ "'"
  | wholeOfNan => "cannot convert float NaN to integer"
  | wholeOfInfinity => "cannot convert float infinity to integer"
  | bridgeDisposed name => "Chat bridge for '" ++ name ++ "' has been disposed"

/-- Trying again may help. -/
def retryable : Fault → Bool
  | outside _ _ r => r
  | providerFailed _ _ cause => cause.retryable
  | _ => false

/-- Update names as they are reported, in ascending order of code points. -/
def ofUnknownFields (fields : List String) : Fault := unknownFields (fields.mergeSort (fun a b => decide (a ≤ b)))

end Fault

/-- A fault that is an exception: anything but the cancellation of a task. -/
structure Complaint where
  fault : Fault
  ne_interrupted : fault ≠ .interrupted

/-- How values are written into sentences, which may fail. -/
abbrev Writing := Value → Except Fault String

namespace Value

def shown (v : Value) : Except Fault String := v.shown?.elim (.error .unwritable) .ok

/-- A value on its own in a sentence. -/
def inSentence : Writing := fun v => v.inSentence?.elim (.error .unwritable) .ok

end Value

/-- The member of an enumeration that a value names; one that names none is shown. -/
def memberOf {α : Type} (ofValue? : String → Option α) (enumeration : String) (v : Value) : Except Fault α :=
  let refused := v.shown.bind fun given => .error (.notAMember given enumeration)
  match v with
  | .text s => (ofValue? s).elim refused .ok
  | _ => refused

namespace Capability

def ofValue (v : Value) : Except Fault Capability := memberOf ofValue? enumeration v

end Capability

namespace CompletionKind

def ofValue (v : Value) : Except Fault CompletionKind := memberOf ofValue? enumeration v

end CompletionKind

namespace EditKind

def ofValue (v : Value) : Except Fault EditKind := memberOf ofValue? enumeration v

end EditKind

namespace Policy

def ofValue (v : Value) : Except Fault Policy := memberOf ofValue? enumeration v

end Policy

end Orchestra
