import Orchestra.Result

/-!
# Orchestra.Result.Record — results as free values

Every field under its name, members of enumerations by their written form.
-/

namespace Orchestra

def Position.toValue (p : Position) : Value :=
  .object [("line", .number (.int p.line)), ("column", .number (.int p.column))]

def Range.toValue (r : Range) : Value := .object [("start", r.start.toValue), ("end", r.stop.toValue)]

namespace Result

def textValue (t : Option String) : Value := (t.map .text).getD .null

def metadataValue (m : Option Object) : Value := (m.map .object).getD .null

def completionValue (c : Completion) : Value :=
  .object [("text", .text c.text), ("range", c.range.toValue), ("kind", .text c.kind.value),
    ("score", .number c.score), ("metadata", metadataValue c.metadata)]

def codeBlockValue (b : CodeBlock) : Value :=
  .object [("code", .text b.code), ("language", .text b.language),
    ("range", (b.range.map Range.toValue).getD .null), ("explanation", textValue b.explanation)]

def codeEditValue (e : CodeEdit) : Value :=
  .object [("range", e.range.toValue), ("text", .text e.text), ("kind", .text e.kind.value)]

def toValue : Result → Value
  | completions r =>
    .object [("completions", .list (r.completions.map completionValue)), ("metadata", metadataValue r.metadata)]
  | chat r =>
    .object [("message", textValue r.message), ("code_blocks", .list (r.codeBlocks.map codeBlockValue)),
      ("suggestions", .list (r.suggestions.map .text)), ("metadata", metadataValue r.metadata)]
  | edits r =>
    .object [("edits", .list (r.edits.map codeEditValue)), ("explanation", textValue r.explanation),
      ("metadata", metadataValue r.metadata)]

/-- How much a result holds, by part. -/
def counts : Result → Object
  | completions r => [("completions", .number (.int r.completions.length))]
  | chat r =>
    [("code_blocks", .number (.int r.codeBlocks.length)), ("suggestions", .number (.int r.suggestions.length))]
  | edits r => [("edits", .number (.int r.edits.length))]

end Result

end Orchestra
