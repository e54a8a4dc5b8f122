import Orchestra.Result

/-!
# Orchestra.Result.Merge — one result from many

Results come in the order in which their providers were registered.  Completions are concatenated, reduced to the first
of each key and ranked by score, the best first, equal scores in order of arrival.  Texts come from the first result
that has one, suggestions are united in order of first occurrence, code blocks and edits are concatenated, and metadata
are overlaid, later names winning.
-/

namespace Orchestra

namespace Result

/-- The elements whose key no earlier element has. -/
def firstByKey {α β : Type} [BEq β] (key : α → β) : List β → List α → List α
  | _, [] => []
  | seen, a :: rest =>
    if seen.contains (key a) then firstByKey key seen rest else a :: firstByKey key (key a :: seen) rest

/-- Without the completions whose text and start occurred before. -/
def dedup (cs : List Completion) : List Completion := firstByKey Completion.key [] cs

/-- By descending score; the sort is stable. -/
def ranked (cs : List Completion) : List Completion := cs.mergeSort fun a b => decide (b.rank ≤ a.rank)

/-- The first text that is there and not empty, else the empty one. -/
def firstText (texts : List (Option String)) : String := (texts.findSome? (Option.filter (· != ""))).getD ""

/-- All metadata in one mapping, later ones over earlier ones. -/
def mergeMetadata (ms : List (Option Object)) : Object := ms.foldl (fun o m => Object.overlay o (m.getD [])) []

def mergeCompletions (rs : List CompletionResult) : CompletionResult where
  completions := ranked (dedup (rs.flatMap CompletionResult.completions))
  metadata := some (mergeMetadata (rs.map CompletionResult.metadata))

def mergeChat (rs : List ChatResponse) : ChatResponse where
  message := some (firstText (rs.map ChatResponse.message))
  codeBlocks := rs.flatMap ChatResponse.codeBlocks
  suggestions := firstByKey id [] (rs.flatMap ChatResponse.suggestions)
  metadata := some (mergeMetadata (rs.map ChatResponse.metadata))

def mergeEdits (rs : List CodeEditResult) : CodeEditResult where
  edits := rs.flatMap CodeEditResult.edits
  explanation := some (firstText (rs.map CodeEditResult.explanation))
  metadata := some (mergeMetadata (rs.map CodeEditResult.metadata))

/-- The merged result for a kind; only the kinds that fan out have one. -/
def merge (kind : Capability) (rs : List Result) : Except Fault Result :=
  match kind with
  | .codeCompletion => .ok (completions (mergeCompletions (rs.filterMap completions?)))
  | .chat => .ok (chat (mergeChat (rs.filterMap chat?)))
  | .codeEdit => .ok (edits (mergeEdits (rs.filterMap edits?)))
  | _ => .error (.unsupported kind none)

end Result

end Orchestra
