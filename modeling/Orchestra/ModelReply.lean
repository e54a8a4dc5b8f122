import Orchestra.Markdown.Fence

/-!
# Orchestra.ModelReply — what a language model answers, and what is kept of it

A reply may lack any of its parts.  Only blocks without a type, or of type `text`, contribute to the text; everything
else (thinking, tool calls) is passed over.
-/

namespace Orchestra

/-- A content block; a missing attribute reads as `null`. -/
structure ContentBlock where
  type : Value := .null
  text : Value := .null
  deriving Repr, Inhabited

/-- A content block as it is given: a mapping, or an object with attributes.  Either may lack any of them. -/
inductive GivenBlock where
  | mapping (entries : Object)
  | object (attributes : Object)
  deriving Repr

namespace GivenBlock

/-- What is given under a name. -/
def read (b : GivenBlock) (name : String) : Value :=
  match b with
  | mapping entries => (entries.get? name).getD .null
  | object attributes => (attributes.get? name).getD .null

def block (b : GivenBlock) : ContentBlock := ⟨b.read "type", b.read "text"⟩

end GivenBlock

/-- Token counts; a missing count reads as zero. -/
structure Usage where
  input : Value := .number (.int 0)
  output : Value := .number (.int 0)
  deriving Repr, Inhabited

structure ModelReply where
  content : List ContentBlock := []
  usage : Option Usage := none
  finishReason : Option String := none
  deriving Repr, Inhabited

namespace ContentBlock

/-- The block has no type, or the type `text`. -/
def bearsText (b : ContentBlock) : Bool :=
  match b.type with
  | .null => true
  | .text t => t == "text"
  | _ => false

/-- The text that the block contributes, if it can be written. -/
def text? (written : Writing) (b : ContentBlock) : Option (Except Fault String) :=
  if b.bearsText && b.text.isSet then some (written b.text) else none

end ContentBlock

namespace ModelReply

/-- A reply with this content. -/
def ofGiven (content : List GivenBlock) (usage : Option Usage) (finishReason : Option String) : ModelReply :=
  { content := content.map (·.block), usage, finishReason }

/-- The texts of all blocks that bear one, joined by line ends. -/
def text (written : Writing) (r : ModelReply) : Except Fault String :=
  ((r.content.filterMap (ContentBlock.text? written)).mapM id).map ("\n".intercalate ·)

def metadata (r : ModelReply) (provider : String) : Object :=
  [("provider", .text provider)] ++
  (r.usage.map fun u => ("usage", Value.object [("input", u.input), ("output", u.output)])).toList ++
  ((r.finishReason.filter (· != "")).map fun s => ("finish_reason", Value.text s)).toList

/-- The chat response made of a reply; no reply at all gives an empty one. -/
def toChat (written : Writing) (reply : Option ModelReply) (provider : String) : Except Fault ChatResponse :=
  match reply with
  | none => .ok { metadata := some [("provider", .text provider)] }
  | some r => (r.text written).map fun text =>
    { message := some text
      codeBlocks := Markdown.blocks text
      metadata := some (r.metadata provider) }

end ModelReply

end Orchestra
