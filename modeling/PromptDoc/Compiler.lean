import PromptDoc.Conversation.Assembly
import PromptDoc.FrontMatter.Parse
import PromptDoc.Metadata.Resolve
import PromptDoc.Options
import PromptDoc.Partial.Loader
import PromptDoc.Yaml.Document

/-!
# The prompt compiler

Compiles documents to prompts that can be rendered many times. To compile is to prepare a fresh
engine: first the caller's helpers, then the built-in ones that no helper replaces, then the local
partials, then those a loader supplies, and last the body. To render is to resolve the metadata, let
the engine render the body, and make messages of what comes out.
-/

namespace PromptDoc

open Json

/-- Why a prompt does not compile or render. Specification §7 and §10.2. -/
inductive PromptError where
  | schema (error : SchemaError)
  | resolve (error : ResolveError)
  | template (error : TemplateError)
  | message (error : MessageError)
  /-- A helper of the name is registered. -/
  | duplicateHelper (name : String)
  /-- A partial of the name is registered. -/
  | duplicatePartial (name : String)
  /-- The loader failed on a partial. -/
  | partialLoad (name reason : String)
  /-- The store failed on a prompt. -/
  | store (name reason : String)
  /-- The store has no such prompt. -/
  | notFound (name : String)
  deriving DecidableEq

/-- The error's text, where it has one of its own. -/
def PromptError.message? : PromptError → Option String
  | schema e => some e.message
  | resolve e => some e.message
  | template (.compile name) => some name
  | template .render => none
  | message e => some e.message
  | duplicateHelper name => some ("the helper is already registered: " ++ name)
  | duplicatePartial name => some ("the partial is already registered: " ++ name)
  | partialLoad name reason => some ("failed to resolve partial '" ++ name ++ "': " ++ reason)
  | store name reason => some ("failed to load prompt '" ++ name ++ "': " ++ reason)
  | notFound name => some ("prompt not found: " ++ name)

/-- The error of a step as an error of prompts. -/
def SetupError.toPromptError : SetupError → PromptError
  | duplicateHelper name => .duplicateHelper name
  | duplicatePartial name => .duplicatePartial name
  | template e => .template e

/-- The error of partials as an error of prompts. -/
def PartialError.toPromptError : PartialError → PromptError
  | load name reason => .partialLoad name reason
  | setup e => e.toPromptError

/-- A prompt compiler. Specification §10.6. -/
structure Compiler (σ : Type) where
  engine : Engine σ
  /-- Reads the front matter of documents. -/
  decode : FrontMatter.Decoder := Yaml.read?
  /-- What metadata is resolved with: the registries of tools and schemas among it. -/
  resolver : Resolver := {}
  helpers : SortedMap String Helper := ∅
  partials : SortedMap String String := ∅
  loader : Option PartialLoader := none

/-- A compiled prompt, with the engine that was prepared for it. -/
structure CompiledPrompt (σ : Type) where
  compiler : Compiler σ
  parsed : ParsedPrompt
  setup : Setup σ

namespace Compiler

variable {σ : Type}

/-- The compiler with some options. -/
def ofOptions (e : Engine σ) (o : Options) : Compiler σ where
  engine := e
  resolver :=
    { defaultModel := o.defaultModel, modelConfigs := o.modelConfigs, tools := o.tools
      schemas := o.schemas }
  partials := o.partials

/-- Define a helper. One with the name of a built-in helper replaces it. -/
def defineHelper (c : Compiler σ) (name : String) (helper : Helper) : Compiler σ :=
  { c with helpers := c.helpers.insert name helper }

/-- Define a partial. -/
def definePartial (c : Compiler σ) (name source : String) : Compiler σ :=
  { c with partials := c.partials.insert name source }

/-- Define a tool under its own name. -/
def defineTool (c : Compiler σ) (tool : ToolDefinition) : Compiler σ :=
  { c with resolver := { c.resolver with tools := c.resolver.tools.insert tool.name tool } }

/-- Define a schema. -/
def defineSchema (c : Compiler σ) (name : String) (schema : Schema) : Compiler σ :=
  { c with resolver := { c.resolver with schemas := c.resolver.schemas.insert name schema } }

/-- The schema defined under a name. -/
def schema? (c : Compiler σ) (name : String) : Option Schema := c.resolver.schemas.get? name

/-- Parse a document. -/
def parse (c : Compiler σ) (source : String) : ParsedPrompt := FrontMatter.parse c.decode source

/-- Compile a schema. Specification §10.8. -/
def compileSchema (c : Compiler σ) (node : Value) : Traced PromptError (Option Schema) :=
  (Shorthand.compile (some c.resolver.lookupSchema) node).mapError .schema

/-- The final metadata of a prompt. Specification §10.6. -/
def resolve (c : Compiler σ) (parsed : PromptMetadata) (overrides : Option PromptMetadata) :
    Traced PromptError PromptMetadata :=
  (c.resolver.resolve parsed overrides).mapError .resolve

/-- The steps that need no loader: the caller's helpers, the built-in helpers that none of them
replaces, and the local partials, each ascending by name. -/
def localSteps (c : Compiler σ) : List Registration :=
  c.helpers.entries.map (fun e ↦ .helper e.1 e.2) ++
    (Builtin.all.filter fun b ↦ !c.helpers.contains b.name).map .builtin ++
    c.partials.entries.map fun e ↦ .partialText e.1 e.2

/-- Register the partials that a text leads to, if there is a loader. -/
def follow (c : Compiler σ) (template : String) (s : Setup σ) : Traced PromptError (Setup σ) :=
  match c.loader with
  | none => pure s
  | some l => (s.follow c.engine l (c.engine.references template)).mapError (·.toPromptError)

/-- Prepare a fresh engine for a template. Specification §10.6. -/
def prepare (c : Compiler σ) (template : String) : Traced PromptError (Setup σ) := do
  let s ← .ofExcept
    ((Setup.addAll c.engine ⟨c.engine.fresh, []⟩ c.localSteps).mapError (·.toPromptError))
  let s ← c.follow template s
  .ofExcept ((s.add c.engine (.body template)).mapError (·.toPromptError))

/-- The prompt with a model and a configuration laid over its own. -/
def withCompileTime (parsed : ParsedPrompt) (metadata : Option PromptMetadata) : ParsedPrompt :=
  match metadata with
  | none => parsed
  | some m =>
    { parsed with metadata := parsed.metadata.merge { model := m.model, config := m.config } }

/-- Compile a document. The metadata contributes a model and a configuration. Specification
§10.6. -/
def compile (c : Compiler σ) (source : String) (metadata : Option PromptMetadata) :
    Traced PromptError (CompiledPrompt σ) := do
  let parsed := withCompileTime (c.parse source) metadata
  let setup ← c.prepare parsed.template
  pure ⟨c, parsed, setup⟩

/-- Loads prompts by name; the error is a text. -/
abbrev PromptSource := String → LoadOptions → Except String (Option PromptData)

/-- Load a prompt and compile it. Specification §10.7. -/
def compileFrom (c : Compiler σ) (store : PromptSource) (name : String) (options : LoadOptions) :
    Traced PromptError (CompiledPrompt σ) :=
  match store name options with
  | .error reason => throw (.store name reason)
  | .ok none => throw (.notFound name)
  | .ok (some prompt) => c.compile prompt.source none

end Compiler

namespace CompiledPrompt

variable {σ : Type}

/-- What the template sees as its input: the defaults, and over them what is given. -/
def input (m : PromptMetadata) (data : RenderData) : Fields :=
  ((m.input.map PromptInput.default).getD ∅).extend data.input

/-- What the template sees as its context: the prompt, the documents and the earlier messages, and
over them what is given. Specification §10.5. -/
def context (m : PromptMetadata) (data : RenderData) : Fields :=
  ((∅ : Fields).insert "metadata" (.object
    [("prompt", m.toJson), ("docs", .array (data.docs.map Document.toJson)),
      ("messages", .array (data.messages.map Message.toJson))])).extend data.context

/-- Render a compiled prompt. Specification §10.6. -/
def render (p : CompiledPrompt σ) (data : RenderData) (options : Option PromptMetadata) :
    Traced PromptError RenderedPrompt := do
  let metadata ← p.compiler.resolve p.parsed.metadata options
  let text ← .ofExcept ((p.compiler.engine.render p.setup.state (input metadata data)
    (context metadata data)).mapError .template)
  let messages ← .ofExcept ((Conversation.toMessages text data.messages).mapError .message)
  pure ⟨metadata, messages⟩

end CompiledPrompt

/-- Compile and render a document. -/
def Compiler.render {σ : Type} (c : Compiler σ) (source : String) (data : RenderData)
    (options : Option PromptMetadata) : Traced PromptError RenderedPrompt := do
  let p ← c.compile source none
  p.render data options

end PromptDoc
