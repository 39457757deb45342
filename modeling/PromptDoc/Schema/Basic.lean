import PromptDoc.Json.Codec

/-!
# JSON Schema documents

A schema is a JSON object, so every keyword of it is kept and stands in its authored place. The
module also holds the names that tell JSON Schema from its shorthand: the keywords of drafts 4 to
2020-12, and the names of types.
-/

namespace PromptDoc

open Json

/-- A JSON Schema document. Specification §3 (Schema). -/
structure Schema where
  fields : Fields := ∅
  deriving DecidableEq

namespace Schema

/-- The scalar type names of the shorthand; `any` stands for an untyped schema. -/
def scalarTypes : List String := ["string", "boolean", "null", "number", "integer", "any"]

/-- The keywords of JSON Schema, drafts 4 to 2020-12, annotations included. -/
def keywords : List String :=
  ["$schema", "$id", "id", "$ref", "$anchor", "$dynamicRef", "$dynamicAnchor", "$recursiveRef",
    "$recursiveAnchor", "$vocabulary", "$comment", "$defs", "definitions", "type", "enum", "const",
    "multipleOf", "maximum", "exclusiveMaximum", "minimum", "exclusiveMinimum", "maxLength",
    "minLength", "pattern", "items", "prefixItems", "additionalItems", "unevaluatedItems",
    "contains", "maxContains", "minContains", "maxItems", "minItems", "uniqueItems", "properties",
    "patternProperties", "additionalProperties", "unevaluatedProperties", "propertyNames",
    "maxProperties", "minProperties", "required", "dependentRequired", "dependentSchemas",
    "dependencies", "allOf", "anyOf", "oneOf", "not", "if", "then", "else", "format",
    "contentEncoding", "contentMediaType", "contentSchema", "title", "description", "default",
    "deprecated", "readOnly", "writeOnly", "examples"]

/-- Whether a key is a keyword of JSON Schema. -/
def isKeyword (k : String) : Bool := keywords.contains k

/-- Whether a name is one of the shorthand's scalar types. -/
def isScalarType (name : String) : Bool := scalarTypes.contains name

/-- Whether a name marks a mapping as JSON Schema when it is the mapping's type. -/
def isTypeName (name : String) : Bool :=
  isScalarType name || name == "object" || name == "array"

/-- The schema with a keyword set. -/
def set (s : Schema) (k : String) (v : Value) : Schema := ⟨s.fields.insert k v⟩

/-- The schema without keywords. -/
def empty : Schema := ⟨∅⟩

/-- The schema with nothing but a type. -/
def ofType (name : String) : Schema := empty.set "type" (.string name)

/-- The schema of an object; other values are no schemas. -/
def ofJson? (v : Value) : Option Schema := v.fields?.map .mk

/-- The object of a schema. -/
def toJson (s : Schema) : Value := .ofFields s.fields

/-- The schema with a description set, if one is given. -/
def describe (s : Schema) (description : Option String) : Schema :=
  match description with
  | some d => s.set "description" (.string d)
  | none => s

/-- The value under a keyword. -/
def get? (s : Schema) (k : String) : Option Value := s.fields.get? k

/-- Whether the schema has a type. -/
def hasType (s : Schema) : Bool := s.fields.contains "type"

/-- The schema's description. -/
def description? (s : Schema) : Option String := (s.get? "description").bind Value.string?

/-- The schema's properties, if they are an object. -/
def properties? (s : Schema) : Option Value := (s.get? "properties").filter Value.isObject

/-- A schema reads back from its object. -/
@[simp] theorem ofJson?_toJson (s : Schema) : ofJson? s.toJson = some s := by
  simp [ofJson?, toJson]

end Schema

end PromptDoc
