import Orchestra.Document
import Orchestra.Fault

/-!
# Orchestra.Context — what is known around a request

Seven facets, each set or not.  A context is never changed in place: `overlay` applies changes facet by facet, where a
change may also clear its facet, and refuses changes to anything that is not a facet.  `facets` is the way back: the set
facets as changes, in their fixed order.
-/

namespace Orchestra

/-! ### The facets -/

structure FileInfo where
  path : String
  language : String
  size : Int
  lastModified : Number
  deriving DecidableEq, Repr, Inhabited

structure GitChange where
  file : String
  status : String
  diff : Option String
  deriving DecidableEq, Repr, Inhabited

structure GitInfo where
  branch : String
  commit : String
  remote : Option String
  changes : List GitChange
  deriving DecidableEq, Repr, Inhabited

structure Workspace where
  root : String
  files : List FileInfo
  dependencies : List String
  configFiles : List String
  git : Option GitInfo
  deriving DecidableEq, Repr, Inhabited

structure FileContext where
  path : String
  content : String
  language : String
  imports : List String
  exports : List String
  dependencies : List String
  deriving DecidableEq, Repr, Inhabited

structure Selection where
  path : String
  range : Range
  content : String
  surroundingLines : List String
  indentation : String
  language : String
  deriving DecidableEq, Repr, Inhabited

structure Context where
  workspace : Option Workspace := none
  file : Option FileContext := none
  selection : Option Selection := none
  language : Option String := none
  framework : Option String := none
  projectType : Option String := none
  preferences : Option Object := none
  deriving Repr, Inhabited

/-- A new content for one facet, none to clear it; or a name that is no facet at all. -/
inductive Change where
  | workspace (content : Option Workspace)
  | file (content : Option FileContext)
  | selection (content : Option Selection)
  | language (content : Option String)
  | framework (content : Option String)
  | projectType (content : Option String)
  | preferences (content : Option Object)
  | unknown (name : String)
  deriving Repr, Inhabited

namespace Change

def name : Change → String
  | workspace _ => "workspace"
  | file _ => "file"
  | selection _ => "selection"
  | language _ => "language"
  | framework _ => "framework"
  | projectType _ => "project_type"
  | preferences _ => "user_preferences"
  | unknown name => name

def isKnown : Change → Bool
  | unknown _ => false
  | _ => true

end Change

/-- Changes by name, in the order in which the names were first given. -/
abbrev Changes := List Change

namespace Changes

/-- A name keeps its place when it is given again. -/
def put (d : Changes) (c : Change) : Changes :=
  match d with
  | [] => [c]
  | b :: rest => if b.name = c.name then c :: rest else b :: put rest c

/-- `d` with the changes of `e` given on top. -/
def update (d e : Changes) : Changes := e.foldl put d

def names (d : Changes) : List String := d.map Change.name

/-- The names that are no facets. -/
def unknownNames (d : Changes) : List String := names (d.filter (!·.isKnown))

end Changes

namespace Context

def empty : Context := {}

/-- The context with one facet changed. -/
def apply (c : Context) : Change → Context
  | .workspace x => { c with workspace := x }
  | .file x => { c with file := x }
  | .selection x => { c with selection := x }
  | .language x => { c with language := x }
  | .framework x => { c with framework := x }
  | .projectType x => { c with projectType := x }
  | .preferences x => { c with preferences := x }
  | .unknown _ => c

/-- The context with every change applied; facets that are not named stay as they are. -/
def overlay (c : Context) (d : Changes) : Except Fault Context :=
  match Changes.unknownNames d with
  | [] => .ok (d.foldl apply c)
  | names => .error (Fault.ofUnknownFields names)

/-- The set facets as changes, in their fixed order. -/
def facets (c : Context) : Changes :=
  (c.workspace.map fun x => Change.workspace (some x)).toList ++
  (c.file.map fun x => Change.file (some x)).toList ++
  (c.selection.map fun x => Change.selection (some x)).toList ++
  (c.language.map fun x => Change.language (some x)).toList ++
  (c.framework.map fun x => Change.framework (some x)).toList ++
  (c.projectType.map fun x => Change.projectType (some x)).toList ++
  (c.preferences.map fun x => Change.preferences (some x)).toList

/-- No facet is set; a facet with an empty content is. -/
def isEmpty (c : Context) : Bool :=
  c.workspace.isNone && c.file.isNone && c.selection.isNone && c.language.isNone && c.framework.isNone &&
    c.projectType.isNone && c.preferences.isNone

/-- The same context with preferences of its own, put in entry by entry. -/
def copy (c : Context) : Context := c.apply (.preferences (c.preferences.map (Object.overlay [])))

end Context

/-! ### Comparing contents -/

/-- Equality of two optional contents by a given comparison. -/
def sameOption {α : Type} (same : α → α → Bool) : Option α → Option α → Bool
  | none, none => true
  | some a, some b => same a b
  | _, _ => false

namespace Workspace

def sameFile (a b : FileInfo) : Bool :=
  a.path == b.path && a.language == b.language && a.size == b.size && a.lastModified.same b.lastModified

def sameFiles : List FileInfo → List FileInfo → Bool
  | [], [] => true
  | a :: as, b :: bs => sameFile a b && sameFiles as bs
  | _, _ => false

def same (a b : Workspace) : Bool :=
  a.root == b.root && sameFiles a.files b.files && a.dependencies == b.dependencies &&
    a.configFiles == b.configFiles && a.git == b.git

end Workspace

namespace Context

/-- The facet that a change names has the same content in both contexts, by value. -/
def sameFacet (a b : Context) : Change → Bool
  | .workspace _ => sameOption Workspace.same a.workspace b.workspace
  | .file _ => a.file == b.file
  | .selection _ => a.selection == b.selection
  | .language _ => a.language == b.language
  | .framework _ => a.framework == b.framework
  | .projectType _ => a.projectType == b.projectType
  | .preferences _ => sameOption (fun x y => Value.same (.object x) (.object y)) a.preferences b.preferences
  | .unknown _ => true

/-- `after`, reached from `before` by the given changes, has the same content: what no change names is shared. -/
def unchangedBy (before after : Context) (d : Changes) : Bool := d.all (sameFacet before after)

end Context

end Orchestra
