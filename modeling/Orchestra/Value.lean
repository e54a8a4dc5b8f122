import Orchestra.Number
import Orchestra.Text.Quoted

/-!
# Orchestra.Value — free values: metadata, preferences and configuration

Values are passed through untouched.  The library itself only asks whether one counts as set (`isSet`), writes it into
a sentence (`inSentence?`) and compares two (`same`).
-/

namespace Orchestra

inductive Value where
  | null
  | bool (b : Bool)
  | number (n : Number)
  | text (s : String)
  | list (items : List Value)
  | object (entries : List (String × Value))
  deriving Inhabited, Repr

/-- A mapping from names to values, in the order in which the names were first put. -/
abbrev Object := List (String × Value)

namespace Object

def get? (o : Object) (name : String) : Option Value := o.lookup name

def keys (o : Object) : List String := o.map Prod.fst

/-- A name keeps its place when it is put again. -/
def put (o : Object) (name : String) (v : Value) : Object :=
  match o with
  | [] => [(name, v)]
  | (n, w) :: rest => if n = name then (n, v) :: rest else (n, w) :: put rest name v

/-- `changes` put over `o` one by one, so that a later value of a name wins. -/
def overlay (o changes : Object) : Object := changes.foldl (fun o c => put o c.1 c.2) o

end Object

namespace Value

/-- `null`, `false`, zero and whatever is empty count as not set. -/
def isSet : Value → Bool
  | null => false
  | bool b => b
  | number n => !n.isZero
  | text s => s != ""
  | list items => !items.isEmpty
  | object entries => !entries.isEmpty

/-! ### Writing

A value cannot be written if a number in it is too long. -/

mutual

/-- A value inside another one: texts are quoted. -/
def shown? : Value → Option String
  | null => some "None"
  | bool b => some (if b then "True" else "False")
  | number n => n.shown?
  | text s => some (Text.quoted s)
  | list items => (shownItems? items).map fun ts => "[" ++ ", ".intercalate ts ++ "]"
  | object entries => (shownEntries? entries).map fun ts => "\x7b" ++ ", ".intercalate ts ++ "\x7d"

def shownItems? : List Value → Option (List String)
  | [] => some []
  | v :: rest => do return (← shown? v) :: (← shownItems? rest)

def shownEntries? : List (String × Value) → Option (List String)
  | [] => some []
  | (name, v) :: rest => do return (Text.quoted name ++ ": " ++ (← shown? v)) :: (← shownEntries? rest)

end

/-- A value on its own in a sentence: a text stands as it is. -/
def inSentence? : Value → Option String
  | text s => some s
  | v => shown? v

/-! ### Comparing -/

/-- Truth values count as the numbers one and zero. -/
def number? : Value → Option Number
  | bool b => some (.int (if b then 1 else 0))
  | number n => some n
  | _ => none

mutual

/-- Equality by value: numbers across their forms, objects whatever their order. -/
def same : Value → Value → Bool
  | null, null => true
  | text s, text t => s == t
  | list xs, list ys => sameItems xs ys
  | object xs, object ys => xs.length == ys.length && sameEntries xs ys
  | bool a, w => (number? w).any (Number.same (.int (if a then 1 else 0)))
  | number n, w => (number? w).any (Number.same n)
  | _, _ => false

def sameItems : List Value → List Value → Bool
  | [], [] => true
  | v :: vs, w :: ws => same v w && sameItems vs ws
  | _, _ => false

def sameEntries : List (String × Value) → List (String × Value) → Bool
  | [], _ => true
  | (name, v) :: rest, ws => (match ws.lookup name with | some w => same v w | none => false) && sameEntries rest ws

end

end Value

end Orchestra
