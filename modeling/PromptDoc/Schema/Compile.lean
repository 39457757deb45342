import PromptDoc.Json.Printer
import PromptDoc.Schema.Shorthand
import PromptDoc.Traced

/-!
# Compiling shorthand to JSON Schema

A shorthand node is a type name, the name of another schema, or a mapping from property keys to
nodes. A mapping that is finished JSON Schema already is taken as it is. Names other than the scalar
types are looked up; looking up may ask a callback, so a compilation is a traced run.
-/

namespace PromptDoc

open Json Shorthand

/-- Why a shorthand node does not compile. Specification §7 (b). -/
inductive SchemaError where
  /-- A name that is no scalar type, where nothing can be looked up. -/
  | unsupportedScalar (name : String)
  /-- A name that nothing is known about. -/
  | notFound (name : String)
  /-- The callback failed on a name. -/
  | lookup (name reason : String)
  /-- An annotation that is neither `array`, `object` nor `enum`. -/
  | parenthetical (name : String)
  /-- The value of an `enum` key is not a list. -/
  | enumValues (key : String)
  /-- A node that is neither a mapping nor a string. -/
  | unexpectedNode (node : Value)
  deriving DecidableEq

/-- The error's text. -/
def SchemaError.message : SchemaError → String
  | unsupportedScalar name => "Picoschema: unsupported scalar type '" ++ name ++ "'"
  | notFound name => "Picoschema: could not find schema with name '" ++ name ++ "'"
  | lookup name reason => "Picoschema: failed to resolve schema '" ++ name ++ "': " ++ reason
  | parenthetical name =>
    "Picoschema: parenthetical types must be 'object' or 'array', got: " ++ name
  | enumValues key => "Picoschema: enum values for '" ++ key ++ "' must be a list"
  | unexpectedNode node =>
    "Picoschema: only consists of objects and strings. Got: " ++ node.compact

/-- Looks up a schema by name; the error is the callback's text. -/
abbrev SchemaLookup := String → Traced String (Option Schema)

namespace Shorthand

/-- Whether a `type` value marks JSON Schema: a type name or a non-empty list of them. -/
def isTypeValue : Value → Bool
  | .string name => Schema.isTypeName name
  | .array names => !names.isEmpty && names.all fun n ↦ n.string?.any Schema.isTypeName
  | _ => false

/-- A mapping that is JSON Schema already: every key is a keyword, and it has a type, or properties
and then gains the type `object`. Nested mappings are not looked at. Specification §4.1, the fast
path. -/
def finished? (fields : List (String × Value)) : Option Schema :=
  if fields.all fun e ↦ Schema.isKeyword e.1 then
    match OrderedMap.find? "type" fields with
    | some t => if isTypeValue t then some ⟨.ofList fields⟩ else none
    | none =>
      if (OrderedMap.find? "properties" fields).any Value.isObject then
        some ((⟨.ofList fields⟩ : Schema).set "type" (.string "object"))
      else none
  else none

/-- The schema that also accepts `null`. A description stays at the top. Specification §4.1. -/
def nullable (s : Schema) : Schema :=
  (Schema.empty.set "anyOf" (.array [s.toJson, (Schema.ofType "null").toJson])).describe
    s.description?

/-- The schema under a name. -/
def named (lookup : Option SchemaLookup) (name : String) : Traced SchemaError Schema :=
  match lookup with
  | none => throw (.unsupportedScalar name)
  | some find => do
    match ← (find name).mapError (.lookup name) with
    | some s => pure s
    | none => throw (.notFound name)

/-- The schema of a scalar type name. -/
def scalar (name : String) : Schema :=
  if name = "any" then .empty else .ofType name

/-- The schema of a type text. Specification §4.1. -/
def ofTypeText (lookup : Option SchemaLookup) (text : String) : Traced SchemaError Schema := do
  let t := Described.ofText text
  let s ← if Schema.isScalarType t.name then pure (scalar t.name) else named lookup t.name
  pure (s.describe t.description)

/-- The schema of a list with the given items. -/
def arrayOf (optional : Bool) (items : Schema) : Schema :=
  if optional then
    (Schema.empty.set "items" items.toJson).set "anyOf"
      (.array [(Schema.ofType "array").toJson, (Schema.ofType "null").toJson])
  else (Schema.ofType "array").set "items" items.toJson

/-- The schema of the given values. An optional one allows `null` as well. -/
def enumOf (optional : Bool) (values : List Value) : Schema :=
  let all := if optional && !values.contains .null then values ++ [.null] else values
  Schema.empty.set "enum" (.array all)

/-- The schema of a property, from its key's parts, its value and the compiled value. Specification
§4.1. -/
def property (key : String) (optional : Bool) (parenthetical : Option Described) (value : Value)
    (compiled : Traced SchemaError Schema) : Traced SchemaError Schema :=
  match parenthetical with
  | none => do
    let s ← compiled
    pure (if optional && s.hasType then nullable s else s)
  | some a => do
    let s ←
      if a.name = "array" then arrayOf optional <$> compiled
      else if a.name = "object" then
        (fun s ↦ if optional then nullable s else s) <$> compiled
      else if a.name = "enum" then
        match value with
        | .array values => pure (enumOf optional values)
        | _ => throw (.enumValues key)
      else throw (.parenthetical a.name)
    pure (s.describe a.description)

/-- An object schema under construction. -/
structure Draft where
  properties : Fields := ∅
  /-- The names of the properties that must be present. -/
  required : SortedMap String Unit := ∅
  additional : Option Schema := none

/-- The finished object schema. -/
def Draft.schema (d : Draft) : Schema :=
  let base := (Schema.ofType "object").set "properties" (.ofFields d.properties)
  let base :=
    if d.required.isEmpty then base else base.set "required" (.ofStrings d.required.keys)
  match d.additional with
  | some s => base.set "additionalProperties" s.toJson
  | none => base

/-- Add an entry of a mapping, whose value is also given compiled. -/
def Draft.add (d : Draft) (key : String) (value : Value) (compiled : Traced SchemaError Schema) :
    Traced SchemaError Draft :=
  match Key.ofText key with
  | .wildcard => do
    let s ← compiled
    pure { d with additional := some s }
  | .property name optional parenthetical => do
    let s ← property key optional parenthetical value compiled
    pure
      { d with
        properties := d.properties.insert name s.toJson
        required := if optional then d.required else d.required.insert name () }

mutual

/-- The schema of a node. Specification §4.1. -/
def ofNode (lookup : Option SchemaLookup) : Value → Traced SchemaError Schema
  | .string text => ofTypeText lookup text
  | .object fields => Draft.schema <$> addAll lookup {} fields
  | node => throw (.unexpectedNode node)

/-- Add the entries of a mapping, in order. -/
def addAll (lookup : Option SchemaLookup) (d : Draft) :
    List (String × Value) → Traced SchemaError Draft
  | [] => pure d
  | (key, value) :: rest => do
    let d ← d.add key value (ofNode lookup value)
    addAll lookup d rest

end

/-- Compile a node. `null` is no schema, and finished JSON Schema is taken as it is. Specification
§4.1, `compile(node, resolver)`. -/
def compile (lookup : Option SchemaLookup) (node : Value) : Traced SchemaError (Option Schema) :=
  match node with
  | .null => pure none
  | .object fields =>
    match finished? fields with
    | some s => pure (some s)
    | none => some <$> ofNode lookup node
  | _ => some <$> ofNode lookup node

end Shorthand

end PromptDoc
