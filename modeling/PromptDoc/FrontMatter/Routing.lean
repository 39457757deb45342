import PromptDoc.Metadata.Basic
import PromptDoc.Text.Split

/-!
# From front matter to metadata

Every reserved key has a typed field of the metadata as its home; a value of the wrong shape is
dropped, never reported. Any other key with a dot is an extension: what stands before its last dot
is the namespace, and reserved words are no namespaces.
-/

namespace PromptDoc.FrontMatter

open Json

/-- The keys with a typed home, ascending. Specification §4.2. -/
def reserved : List String :=
  ["config", "description", "ext", "input", "maxTurns", "model", "name", "output", "raw",
    "toolDefs", "tools", "variant", "version"]

/-- Whether a key has a typed home. -/
def isReserved (k : String) : Bool := reserved.contains k

/-- A schema is given as an object or a string. -/
def schemaShape (v : Value) : Bool := v.isObject || v.isString

/-- A tool definition, of which only the fields of the right shape count. -/
def toolDefinition (v : Value) : Option ToolDefinition :=
  v.fields?.map fun fields ↦
    { name := ((fields.get? "name").bind Value.string?).getD ""
      description := (fields.get? "description").bind Value.string?
      inputSchema := (fields.get? "inputSchema").filter Value.isObject
      outputSchema := (fields.get? "outputSchema").filter Value.isObject }

/-- What is said about the input, of which only the fields of the right shape count. -/
def promptInput (fields : Fields) : PromptInput where
  default := ((fields.get? "default").bind Value.fields?).getD ∅
  schema := (fields.get? "schema").filter schemaShape

/-- What is said about the output, of which only the fields of the right shape count. -/
def promptOutput (fields : Fields) : PromptOutput where
  format := (fields.get? "format").bind Value.string?
  schema := (fields.get? "schema").filter schemaShape

/-- The namespace and the field of an extension key. Specification §4.2 and §3 (PromptMetadata). -/
def extensionKey? (k : String) : Option (String × String) :=
  if isReserved k then none
  else (Text.cutLast? '.' k.toList).bind fun p ↦
    let space := String.ofList p.1
    if isReserved space then none else some (space, String.ofList p.2)

/-- Add an entry of the front matter to the extensions, if its key is an extension key. -/
def addExtension (ext : SortedMap String Fields) (e : String × Value) : SortedMap String Fields :=
  match extensionKey? e.1 with
  | some (space, field) => ext.insert space (((ext.get? space).getD ∅).insert field e.2)
  | none => ext

/-- Put an entry of the front matter where its key belongs. A text or a number of another shape
leaves nothing there, as an input or an output does that is no object; a list or a configuration of
another shape leaves there what was. -/
def place (m : PromptMetadata) (e : String × Value) : PromptMetadata :=
  match e.1 with
  | "name" => { m with name := e.2.string? }
  | "description" => { m with description := e.2.string? }
  | "variant" => { m with variant := e.2.string? }
  | "version" => { m with version := e.2.string? }
  | "model" => { m with model := e.2.string? }
  | "maxTurns" => { m with maxTurns := turns? e.2 }
  | "config" => { m with config := e.2.fields?.getD m.config }
  | "tools" => { m with tools := (e.2.items?.map (·.filterMap Value.string?)).getD m.tools }
  | "toolDefs" =>
    { m with toolDefs := (e.2.items?.map (·.filterMap toolDefinition)).getD m.toolDefs }
  | "input" => { m with input := e.2.fields?.map promptInput }
  | "output" => { m with output := e.2.fields?.map promptOutput }
  -- `raw` and `ext` are reserved, so they come here and are no extensions
  | _ => { m with ext := addExtension m.ext e }

/-- The metadata of front matter: each entry is put in its place, one after the other, and the front
matter is kept. Specification §4.2. -/
def metadata (raw : Fields) : PromptMetadata :=
  { raw.entries.foldl place {} with raw := some raw }

end PromptDoc.FrontMatter
