import PromptDoc.Metadata.Merge
import PromptDoc.Schema.Compile

/-!
# Resolving metadata

The final metadata of a render: the configuration of the model, the prompt's own metadata and the
caller's, laid over one another; then the tool names are resolved to definitions and the two schemas
compiled. Registries are asked first, callbacks only for what no registry knows.
-/

namespace PromptDoc

open Json

/-- Which schema of a prompt is meant. -/
inductive SchemaField where
  | input
  | output
  deriving DecidableEq

/-- The field's name. -/
def SchemaField.name : SchemaField → String
  | input => "input"
  | output => "output"

/-- Why metadata does not resolve. Specification §7 (c). -/
inductive ResolveError where
  /-- The callback knows nothing about a tool. -/
  | unresolvedTool (name : String)
  /-- The callback failed on a tool. -/
  | toolCallback (name reason : String)
  /-- A schema does not compile. -/
  | schema (field : SchemaField) (error : SchemaError)
  deriving DecidableEq

/-- The error's text. -/
def ResolveError.message : ResolveError → String
  | unresolvedTool name =>
    "Dotprompt: Unable to resolve tool '" ++ name ++ "' to a recognized tool definition"
  | toolCallback name reason =>
    "Dotprompt: failed to resolve tool '" ++ name ++ "': " ++ reason
  | schema field error =>
    "Dotprompt: invalid " ++ field.name ++ " schema: " ++ error.message

/-- A callback that may know something under a name; its error is a text. -/
abbrev Callback (α : Type) := String → Except String (Option α)

/-- What metadata is resolved with. Specification §4.3. -/
structure Resolver where
  /-- The model of prompts that name none. -/
  defaultModel : Option String := none
  /-- The default configuration of each model. -/
  modelConfigs : SortedMap String Fields := ∅
  tools : SortedMap String ToolDefinition := ∅
  toolCallback : Option (Callback ToolDefinition) := none
  schemas : SortedMap String Schema := ∅
  schemaCallback : Option (Callback Schema) := none

namespace Resolver

/-- The model that some metadata names. -/
def namedModel (m : PromptMetadata) : Option String := m.model.filter fun s ↦ !s.isEmpty

/-- The caller's model, else the prompt's, else the default. Specification §4.3, the effective model
id. -/
def effectiveModel (r : Resolver) (parsed : PromptMetadata) (overrides : Option PromptMetadata) :
    Option String :=
  ((overrides.bind namedModel).or (namedModel parsed)).or r.defaultModel

/-- The metadata laid over one another: the model's configuration, the prompt's, the caller's.
Specification §4.3, the merge order. -/
def merged (r : Resolver) (parsed : PromptMetadata) (overrides : Option PromptMetadata) :
    PromptMetadata :=
  let model := r.effectiveModel parsed overrides
  let config := (model.bind r.modelConfigs.get?).getD ∅
  let base := ({ model, config } : PromptMetadata).merge parsed
  match overrides with
  | some upper => base.merge upper
  | none => base

/-- Ask the callback about a tool. An empty definition is no answer. -/
def askTool (ask : Callback ToolDefinition) (name : String) : Traced ResolveError ToolDefinition :=
  .afterCall (.tool name) <|
    match ask name with
    | .error reason => throw (.toolCallback name reason)
    | .ok none => throw (.unresolvedTool name)
    | .ok (some t) => if t.isEmpty then throw (.unresolvedTool name) else pure t

/-- The definitions of tool names, and the names that stay names for want of a callback.
Specification §4.3, tool resolution. -/
def resolveTools (r : Resolver) : List String →
    Traced ResolveError (List ToolDefinition × List String)
  | [] => pure ([], [])
  | name :: rest =>
    match r.tools.get? name, r.toolCallback with
    | some t, _ => do
      let (defs, left) ← resolveTools r rest
      pure (t :: defs, left)
    | none, none => do
      let (defs, left) ← resolveTools r rest
      pure (defs, name :: left)
    | none, some ask => do
      let t ← askTool ask name
      let (defs, left) ← resolveTools r rest
      pure (t :: defs, left)

/-- Look a schema up: in the registry, else by the callback. Specification §10.8. -/
def lookupSchema (r : Resolver) : SchemaLookup := fun name ↦
  match r.schemas.get? name, r.schemaCallback with
  | some s, _ => pure (some s)
  | none, none => pure none
  | none, some ask => .afterCall (.schema name) (.ofExcept (ask name))

/-- Compile a schema of the metadata. Specification §4.3, schema resolution. -/
def compileSchema (r : Resolver) (field : SchemaField) (schema : Option Value) :
    Traced ResolveError (Option Value) :=
  match schema with
  | none => pure none
  | some node => do
    let s ← (Shorthand.compile (some r.lookupSchema) node).mapError (.schema field)
    pure (s.map Schema.toJson)

/-- The metadata with its input's schema compiled. -/
def compileInput (r : Resolver) (m : PromptMetadata) : Traced ResolveError PromptMetadata :=
  match m.input with
  | none => pure m
  | some i => do
    let schema ← r.compileSchema .input i.schema
    pure { m with input := some { i with schema } }

/-- The metadata with its output's schema compiled. -/
def compileOutput (r : Resolver) (m : PromptMetadata) : Traced ResolveError PromptMetadata :=
  match m.output with
  | none => pure m
  | some o => do
    let schema ← r.compileSchema .output o.schema
    pure { m with output := some { o with schema } }

/-- The metadata with its tool names resolved. -/
def withTools (r : Resolver) (m : PromptMetadata) : Traced ResolveError PromptMetadata := do
  let (defs, left) ← r.resolveTools m.tools
  pure { m with tools := left, toolDefs := m.toolDefs ++ defs }

/-- The final metadata. Specification §4.3, `resolve(parsedPrompt, overrides)`. -/
def resolve (r : Resolver) (parsed : PromptMetadata) (overrides : Option PromptMetadata) :
    Traced ResolveError PromptMetadata := do
  let m ← r.withTools (r.merged parsed overrides)
  let m ← r.compileInput m
  r.compileOutput m

end Resolver

end PromptDoc
