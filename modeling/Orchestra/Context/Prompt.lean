import Orchestra.Context

/-!
# Orchestra.Context.Prompt — a context in words

One line per set facet that has something to say, in a fixed order; the selection is quoted in a fence, and preferences
are listed by name.  There are no words for a context with a value in it that cannot be written.
-/

namespace Orchestra

/-- A text between fences of three backticks, under a language tag. -/
def fenced (language code : String) : String := "```" ++ language ++ "\n" ++ code ++ "\n```"

namespace Context

/-- A line for a text that is there and not empty. -/
def labelled (label : String) (content : Option String) : List String :=
  ((content.filter (· != "")).map (label ++ ·)).toList

def workspaceLines (w : Workspace) : List String :=
  ("Workspace root: " ++ w.root) ::
    ((if w.dependencies.isEmpty then [] else ["Dependencies: " ++ ", ".intercalate w.dependencies]) ++
      (w.git.map fun g => "Git branch: " ++ g.branch).toList)

def selectionLines (written : Writing) (s : Selection) : Except Fault (List String) := do
  let line ← written (.number (.int s.range.start.line))
  let column ← written (.number (.int s.range.start.column))
  return ["Selection in " ++ s.path ++ " at line " ++ line ++ ", column " ++ column ++ ":", fenced s.language s.content]

/-- By name in ascending order of code points. -/
def byName (o : Object) : Object := o.mergeSort fun a b => decide (a.1 ≤ b.1)

def preference (written : Writing) (e : String × Value) : Except Fault String := (written e.2).map (e.1 ++ "=" ++ ·)

def preferencesLines (written : Writing) (o : Object) : Except Fault (List String) :=
  if o.isEmpty then .ok []
  else ((byName o).mapM (preference written)).map fun entries => ["User preferences: " ++ ", ".intercalate entries]

/-- The lines of a facet; none if it has nothing to say. -/
def facetLines (written : Writing) : Change → Except Fault (List String)
  | .language s => .ok (labelled "Language: " s)
  | .framework s => .ok (labelled "Framework: " s)
  | .projectType s => .ok (labelled "Project type: " s)
  | .workspace w => .ok ((w.map workspaceLines).getD [])
  | .file f => .ok (f.map fun f => "Current file: " ++ f.path ++ " (" ++ f.language ++ ")").toList
  | .selection s => s.elim (.ok []) (selectionLines written)
  | .preferences o => preferencesLines written (o.getD [])
  | .unknown _ => .ok []

/-- The facets in the order in which they are worded. -/
def worded (c : Context) : List Change :=
  [.language c.language, .framework c.framework, .projectType c.projectType, .workspace c.workspace, .file c.file,
    .selection c.selection, .preferences c.preferences]

def promptLines (written : Writing) (c : Context) : Except Fault (List String) :=
  (c.worded.mapM (facetLines written)).map List.flatten

/-- The context in words; empty if there is nothing to say. -/
def prompt (written : Writing) (c : Context) : Except Fault String :=
  (c.promptLines written).map ("\n".intercalate ·)

end Context

/-! ### Requests to a language model -/

def defaultSystemPrompt : String :=
  "You are an AI programming assistant embedded in a code editor. " ++
    "Answer concisely and put code in fenced code blocks."

/-- The messages of one chat request, as pairs of role and content. -/
def chatMessages (written : Writing) (message : String) (context : Context) (system : String) :
    Except Fault (List (String × String)) := do
  let words ← context.prompt written
  let system := if words = "" then system else system ++ "\n\nContext:\n" ++ words
  return [("system", system), ("user", message)]

end Orchestra
