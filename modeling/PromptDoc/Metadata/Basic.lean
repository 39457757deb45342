import PromptDoc.Decimal.Power
import PromptDoc.Map.Sorted
import PromptDoc.Part
import PromptDoc.Tool

/-!
# Prompt metadata

What a prompt says about itself: its name, model and configuration, the tools it uses, its input and
output, and the extensions found under dotted keys.
-/

namespace PromptDoc

open Json

/-- What a prompt says about its input. -/
structure PromptInput where
  /-- Values of input variables that are not given. -/
  default : Fields := ∅
  /-- The schema of the input: shorthand, JSON Schema, or the name of a schema. -/
  schema : Option Value := none
  deriving DecidableEq

/-- What a prompt says about its output. -/
structure PromptOutput where
  format : Option String := none
  schema : Option Value := none
  deriving DecidableEq

/-- What a prompt says about itself. Specification §3 (PromptMetadata). -/
structure PromptMetadata where
  name : Option String := none
  variant : Option String := none
  version : Option String := none
  description : Option String := none
  model : Option String := none
  /-- The most turns of tool use. -/
  maxTurns : Option UInt32 := none
  /-- Names of tools that are defined elsewhere. -/
  tools : List String := []
  /-- Tools with their definitions. -/
  toolDefs : List ToolDefinition := []
  config : Fields := ∅
  input : Option PromptInput := none
  output : Option PromptOutput := none
  /-- The front matter as it was decoded. -/
  raw : Option Fields := none
  /-- Extensions: the fields of each namespace. -/
  ext : SortedMap String Fields := ∅
  metadata : Option Annotations := none
  deriving DecidableEq

namespace PromptInput

/-- Whether nothing is said. -/
def isEmpty (i : PromptInput) : Bool := i.default.isEmpty && i.schema.isNone

/-- Only the input without defaults and schema says nothing. -/
theorem isEmpty_iff {i : PromptInput} : i.isEmpty = true ↔ i = {} := by
  obtain ⟨default, schema⟩ := i
  rw [isEmpty, Bool.and_eq_true, OrderedMap.isEmpty_iff, Option.isNone_iff_eq_none, mk.injEq]

/-- The written form. -/
def toJson (i : PromptInput) : Value :=
  .object (entryUnless i.default.isEmpty "default" (.ofFields i.default) ++
    entryGiven "schema" i.schema)

/-- Read the written form. -/
def ofJson? (v : Value) : Option PromptInput := do
  let fields ← record? ["default", "schema"] v
  let default ← defaulted? Value.fields? ∅ "default" fields
  let schema ← optional? some "schema" fields
  some ⟨default, schema⟩

end PromptInput

namespace PromptOutput

/-- Whether nothing is said. -/
def isEmpty (o : PromptOutput) : Bool := o.format.isNone && o.schema.isNone

/-- Only the output without format and schema says nothing. -/
theorem isEmpty_iff {o : PromptOutput} : o.isEmpty = true ↔ o = {} := by
  obtain ⟨format, schema⟩ := o
  rw [isEmpty, Bool.and_eq_true, Option.isNone_iff_eq_none, Option.isNone_iff_eq_none, mk.injEq]

/-- The written form. -/
def toJson (o : PromptOutput) : Value :=
  .object (entryGiven "format" (o.format.map .string) ++ entryGiven "schema" o.schema)

/-- Read the written form. -/
def ofJson? (v : Value) : Option PromptOutput := do
  let fields ← record? ["format", "schema"] v
  let format ← optional? Value.string? "format" fields
  let schema ← optional? some "schema" fields
  some ⟨format, schema⟩

end PromptOutput

/-- Read a number of turns. -/
def turns? (v : Value) : Option UInt32 := (natBelow? (Decimal.pow2 32) v).map UInt32.ofNat

/-- The written form of extensions. -/
def extToJson (ext : SortedMap String Fields) : Value :=
  .object (ext.entries.map fun e ↦ (e.1, .ofFields e.2))

/-- Read extensions. -/
def ext? (v : Value) : Option (SortedMap String Fields) := do
  let fields ← v.fields?
  let spaces ← fields.entries.mapM fun e ↦ (Value.fields? e.2).map fun m ↦ (e.1, m)
  some (.ofList spaces)

namespace PromptMetadata

/-- The entries of the written form. -/
def toEntries (m : PromptMetadata) : List (String × Value) :=
  entryGiven "name" (m.name.map .string) ++
  entryGiven "variant" (m.variant.map .string) ++
  entryGiven "version" (m.version.map .string) ++
  entryGiven "description" (m.description.map .string) ++
  entryGiven "model" (m.model.map .string) ++
  entryGiven "maxTurns" (m.maxTurns.map fun n ↦ .ofNat n.toNat) ++
  entryUnless m.tools.isEmpty "tools" (.ofStrings m.tools) ++
  entryUnless m.toolDefs.isEmpty "toolDefs" (.array (m.toolDefs.map ToolDefinition.toJson)) ++
  entryUnless m.config.isEmpty "config" (.ofFields m.config) ++
  entryGiven "input" (m.input.map PromptInput.toJson) ++
  entryGiven "output" (m.output.map PromptOutput.toJson) ++
  entryGiven "raw" (m.raw.map .ofFields) ++
  entryUnless m.ext.isEmpty "ext" (extToJson m.ext) ++
  entryGiven "metadata" (m.metadata.map .ofFields)

/-- Read metadata from the entries of an object. -/
def ofEntries? (fields : List (String × Value)) : Option PromptMetadata := do
  let name ← optional? Value.string? "name" fields
  let variant ← optional? Value.string? "variant" fields
  let version ← optional? Value.string? "version" fields
  let description ← optional? Value.string? "description" fields
  let model ← optional? Value.string? "model" fields
  let maxTurns ← optional? turns? "maxTurns" fields
  let tools ← defaulted? (list? Value.string?) [] "tools" fields
  let toolDefs ← defaulted? (list? ToolDefinition.ofJson?) [] "toolDefs" fields
  let config ← defaulted? Value.fields? ∅ "config" fields
  let input ← optional? PromptInput.ofJson? "input" fields
  let output ← optional? PromptOutput.ofJson? "output" fields
  let raw ← optional? Value.fields? "raw" fields
  let ext ← defaulted? ext? ∅ "ext" fields
  let metadata ← optional? Value.fields? "metadata" fields
  some { name, variant, version, description, model, maxTurns, tools, toolDefs, config, input,
         output, raw, ext, metadata }

/-- The names of the fields, in order. -/
def names : List String :=
  ["name", "variant", "version", "description", "model", "maxTurns", "tools", "toolDefs", "config",
    "input", "output", "raw", "ext", "metadata"]

/-- The written form of metadata. -/
def toJson (m : PromptMetadata) : Value := .object m.toEntries

/-- Read metadata. -/
def ofJson? (v : Value) : Option PromptMetadata := (record? names v).bind ofEntries?

/-- The schema of the input. -/
def inputSchema? (m : PromptMetadata) : Option Value := m.input.bind (·.schema)

/-- The schema of the output. -/
def outputSchema? (m : PromptMetadata) : Option Value := m.output.bind (·.schema)

end PromptMetadata

end PromptDoc
