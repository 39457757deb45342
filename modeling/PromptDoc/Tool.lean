import PromptDoc.Json.Codec

/-!
# Tool definitions

A tool that a prompt may use. The definition with an empty name and nothing else says that nothing
is known about a tool.
-/

namespace PromptDoc

open Json

/-- A tool that a prompt may use. Specification §3 (ToolDefinition). -/
structure ToolDefinition where
  name : String := ""
  description : Option String := none
  inputSchema : Option Value := none
  outputSchema : Option Value := none
  deriving DecidableEq

namespace ToolDefinition

/-- Whether a definition says nothing. -/
def isEmpty (t : ToolDefinition) : Bool :=
  t.name.isEmpty && t.description.isNone && t.inputSchema.isNone && t.outputSchema.isNone

/-- Only the definition without any content is empty. -/
theorem isEmpty_iff {t : ToolDefinition} : t.isEmpty = true ↔ t = {} := by
  obtain ⟨name, description, inputSchema, outputSchema⟩ := t
  simp [isEmpty, and_assoc]

/-- The written form of a definition. -/
def toJson (t : ToolDefinition) : Value :=
  .object (entry "name" (.string t.name) ++ entryGiven "description" (t.description.map .string) ++
    entryGiven "inputSchema" t.inputSchema ++ entryGiven "outputSchema" t.outputSchema)

/-- Read a definition. -/
def ofJson? (v : Value) : Option ToolDefinition := do
  let fields ← record? ["name", "description", "inputSchema", "outputSchema"] v
  let name ← required? Value.string? "name" fields
  let description ← optional? Value.string? "description" fields
  let inputSchema ← optional? some "inputSchema" fields
  let outputSchema ← optional? some "outputSchema" fields
  some ⟨name, description, inputSchema, outputSchema⟩

end ToolDefinition

end PromptDoc
