import PromptDoc.Map.Sorted
import PromptDoc.Schema.Basic
import PromptDoc.Tool
import PromptDoc.Yaml.Document

/-!
# Options

What a prompt compiler starts with. Options are read from JSON or from YAML. In YAML a scalar where
a text is wanted is its own text, an empty place is an empty table, and a field must not be given
twice; of a name that a table gives twice the last entry counts.
-/

namespace PromptDoc

open Json

/-- What a prompt compiler starts with. Specification §10.4. -/
structure Options where
  /-- The model of prompts that name none. -/
  defaultModel : Option String := none
  /-- The default configuration of each model. -/
  modelConfigs : SortedMap String Fields := ∅
  partials : SortedMap String String := ∅
  tools : SortedMap String ToolDefinition := ∅
  schemas : SortedMap String Schema := ∅
  deriving DecidableEq

/-- Read a table whose values are read by `read`. -/
def table? {α : Type} (read : Value → Option α) (v : Value) : Option (SortedMap String α) := do
  let fields ← entries? v
  let entries ← fields.mapM fun e ↦ (read e.2).map fun x ↦ (e.1, x)
  some (.ofList entries)

/-- The written form of a table. -/
def tableToJson {α : Type} (write : α → Value) (m : SortedMap String α) : Value :=
  .object (m.entries.map fun e ↦ (e.1, write e.2))

namespace Options

/-- The written form of options. -/
def toJson (o : Options) : Value :=
  .object (entry "defaultModel" ((o.defaultModel.map .string).getD .null) ++
    entry "modelConfigs" (tableToJson .ofFields o.modelConfigs) ++
    entry "partials" (tableToJson .string o.partials) ++
    entry "tools" (tableToJson ToolDefinition.toJson o.tools) ++
    entry "schemas" (tableToJson Schema.toJson o.schemas))

/-- Read options. -/
def ofJson? (v : Value) : Option Options := do
  let fields ← record? ["defaultModel", "modelConfigs", "partials", "tools", "schemas"] v
  let defaultModel ← optional? Value.string? "defaultModel" fields
  let modelConfigs ← defaulted? (table? Value.fields?) ∅ "modelConfigs" fields
  let partials ← defaulted? (table? Value.string?) ∅ "partials" fields
  let tools ← defaulted? (table? ToolDefinition.ofJson?) ∅ "tools" fields
  let schemas ← defaulted? (table? Schema.ofJson?) ∅ "schemas" fields
  some ⟨defaultModel, modelConfigs, partials, tools, schemas⟩

/-- Look a field up that must not be given twice. -/
def field? (k : String) (fields : List (String × Yaml.Node)) : Yaml.Decoding (Option Yaml.Node) :=
  match fields.filter fun e ↦ e.1 = k with
  | [] => return none
  | [e] => return some e.2
  | _ => failure

/-- Read a field that may be missing. -/
def yamlField {α : Type} (read : Yaml.Node → Yaml.Decoding α) (missing : α) (k : String)
    (fields : List (String × Yaml.Node)) : Yaml.Decoding α := do
  match ← field? k fields with
  | some n => read n
  | none => return missing

/-- How deep collections may nest in a value inside a table: the options, the table and its entry
are three already. -/
def valueDepth : Nat := Yaml.Document.maxDepth - 3

variable (d : Yaml.Document)

/-- Read a mapping of values. -/
def yamlFields (n : Yaml.Node) : Yaml.Decoding Fields := do
  let entries ← (← d.entries n).mapM fun e ↦ do return (e.1, ← d.value valueDepth e.2)
  return .ofList entries

/-- Read a table. -/
def yamlTable {α : Type} (read : Yaml.Node → Yaml.Decoding α) (n : Yaml.Node) :
    Yaml.Decoding (SortedMap String α) := do
  let entries ← (← d.entries n).mapM fun e ↦ do return (e.1, ← read e.2)
  return .ofList entries

/-- Read a tool. -/
def yamlTool (n : Yaml.Node) : Yaml.Decoding ToolDefinition := do
  let fields ← d.entries n
  let name ← yamlField d.text "" "name" fields
  guard (fields.any fun e ↦ e.1 = "name")
  let description ← yamlField d.text? none "description" fields
  let inputSchema ← yamlField (d.value? valueDepth) none "inputSchema" fields
  let outputSchema ← yamlField (d.value? valueDepth) none "outputSchema" fields
  return ⟨name, description, inputSchema, outputSchema⟩

/-- Read options from the root of a document. -/
def ofYamlNode (n : Yaml.Node) : Yaml.Decoding Options := do
  let fields ← d.entries n
  let defaultModel ← yamlField d.text? none "defaultModel" fields
  let modelConfigs ← yamlField (yamlTable d (yamlFields d)) ∅ "modelConfigs" fields
  let partials ← yamlField (yamlTable d d.text) ∅ "partials" fields
  let tools ← yamlField (yamlTable d (yamlTool d)) ∅ "tools" fields
  let schemas ← yamlField (yamlTable d fun n ↦ do return ⟨← yamlFields d n⟩) ∅ "schemas" fields
  return ⟨defaultModel, modelConfigs, partials, tools, schemas⟩

/-- Read options from a YAML text. -/
def ofYaml? (s : String) : Option Options := do
  let d ← Yaml.Document.ofText? s
  match d.root with
  | none => some {}
  | some root => d.decode (ofYamlNode d root)

end Options

end PromptDoc
