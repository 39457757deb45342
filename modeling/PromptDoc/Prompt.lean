import PromptDoc.Message
import PromptDoc.Metadata.Basic

/-!
# Prompts

A prompt as parsed, metadata with a template, and as rendered, metadata with messages. Both are
written as their metadata with one more entry.
-/

namespace PromptDoc

open Json

/-- A prompt split into metadata and template. Specification §3 (ParsedPrompt). -/
structure ParsedPrompt where
  metadata : PromptMetadata := {}
  template : String
  deriving DecidableEq

/-- The outcome of a render. Specification §3 (RenderedPrompt). -/
structure RenderedPrompt where
  metadata : PromptMetadata
  messages : List Message
  deriving DecidableEq

/-- The written form of a parsed prompt. -/
def ParsedPrompt.toJson (p : ParsedPrompt) : Value :=
  .object (p.metadata.toEntries ++ entry "template" (.string p.template))

/-- Read a parsed prompt. -/
def ParsedPrompt.ofJson? (v : Value) : Option ParsedPrompt := do
  let fields ← entries? v
  let metadata ← PromptMetadata.ofEntries? fields
  let template ← required? Value.string? "template" fields
  some ⟨metadata, template⟩

/-- The written form of a rendered prompt. -/
def RenderedPrompt.toJson (p : RenderedPrompt) : Value :=
  .object (p.metadata.toEntries ++ entry "messages" (.array (p.messages.map Message.toJson)))

/-- Read a rendered prompt. -/
def RenderedPrompt.ofJson? (v : Value) : Option RenderedPrompt := do
  let fields ← entries? v
  let metadata ← PromptMetadata.ofEntries? fields
  let messages ← required? (list? Message.ofJson?) "messages" fields
  some ⟨metadata, messages⟩

end PromptDoc
