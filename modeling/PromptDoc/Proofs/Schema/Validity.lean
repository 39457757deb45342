import PromptDoc.Schema.Basic

/-!
# Validity under a schema

What a schema says of a value, for the keywords `type`, `enum`, `anyOf`, `properties`, `required`,
`additionalProperties` and `items`. Every other keyword says nothing, and so does a keyword whose
value has not the form it should have. The types that names stand for are a parameter. Main
statement: validity looks at a schema only through its keywords' values (`valid_iff_get?`), so
setting one keyword adds what that keyword says (`valid_set`).
-/

namespace PromptDoc.Schema

open Json

/-- What values a type name stands for. `null`, `array` and `object` are what they say. -/
structure Typing where
  holds : String → Value → Prop
  null_iff (v : Value) : holds "null" v ↔ v = .null
  array_iff (v : Value) : holds "array" v ↔ ∃ items, v = .array items
  object_iff (v : Value) : holds "object" v ↔ ∃ members, v = .object members

/-- The types of JSON. -/
def Typing.json : Typing where
  holds
    | "null", v => v = .null
    | "boolean", v => ∃ b, v = .bool b
    | "number", v => ∃ n, v = .number n
    | "integer", v => ∃ i, v = .number (.int i)
    | "string", v => ∃ text, v = .string text
    | "array", v => ∃ items, v = .array items
    | "object", v => ∃ members, v = .object members
    | _, _ => False
  null_iff _ := .rfl
  array_iff _ := .rfl
  object_iff _ := .rfl

/-- A value has the type of a `type` keyword, or one of those that it lists. -/
def Typing.Admits (t : Typing) : (types v : Value) → Prop
  | .string name, v => t.holds name v
  | .array names, v => ∃ name, .string name ∈ names ∧ t.holds name v
  | _, _ => True

/-- The property names of a `properties` keyword. -/
def namesOf : Option Value → List String
  | some (.object properties) => properties.map Prod.fst
  | _ => []

mutual

/-- A value is valid under a schema: all its keywords hold. A truth value is a schema too. -/
def Valid (t : Typing) : (schema v : Value) → Prop
  | .bool b, _ => b = true
  | .object keywords, v =>
    ValidAll t (namesOf (OrderedMap.find? "properties" keywords)) keywords v
  | _, _ => True
termination_by structural schema => schema

/-- All keywords of a list hold, beside properties of the given names. -/
def ValidAll (t : Typing) (named : List String) : List (String × Value) → Value → Prop
  | [], _ => True
  | keyword :: rest, v => Holds t named keyword v ∧ ValidAll t named rest v
termination_by structural keywords => keywords

/-- What one keyword says of a value. -/
def Holds (t : Typing) (named : List String) : String × Value → Value → Prop
  | ("type", types), v => t.Admits types v
  | ("enum", .array values), v => v ∈ values
  | ("anyOf", .array schemas), v => ValidAny t schemas v
  | ("properties", .object properties), .object members =>
    ∀ m ∈ members, ValidNamed t properties m.1 m.2
  | ("required", .array names), .object members =>
    ∀ name, .string name ∈ names → name ∈ members.map Prod.fst
  | ("additionalProperties", schema), .object members =>
    ∀ m ∈ members, m.1 ∉ named → Valid t schema m.2
  | ("items", schema), .array items => ∀ x ∈ items, Valid t schema x
  | _, _ => True
termination_by structural keyword => keyword

/-- A value is valid under one of the schemas. -/
def ValidAny (t : Typing) : List Value → Value → Prop
  | [], _ => False
  | schema :: rest, v => Valid t schema v ∨ ValidAny t rest v
termination_by structural schemas => schemas

/-- A member is valid under the schemas of its name. -/
def ValidNamed (t : Typing) : List (String × Value) → String → Value → Prop
  | [], _, _ => True
  | (name, schema) :: rest, member, v =>
    (member = name → Valid t schema v) ∧ ValidNamed t rest member v
termination_by structural properties => properties

end

variable {t : Typing} {named : List String} {s : Schema} {v : Value}

/-- All of a list holds when each does. -/
theorem validAll_iff {keywords : List (String × Value)} :
    ValidAll t named keywords v ↔ ∀ keyword ∈ keywords, Holds t named keyword v := by
  induction keywords with
  | nil => simp [ValidAll]
  | cons keyword rest ih => rw [ValidAll, ih, List.forall_mem_cons]

/-- One of a list is enough. -/
theorem validAny_iff {schemas : List Value} :
    ValidAny t schemas v ↔ ∃ schema ∈ schemas, Valid t schema v := by
  induction schemas with
  | nil => simp [ValidAny]
  | cons schema rest ih => simp [ValidAny, ih]

/-- A member is bound by each schema of its name. -/
theorem validNamed_iff {properties : List (String × Value)} {member : String} :
    ValidNamed t properties member v ↔
      ∀ schema, (member, schema) ∈ properties → Valid t schema v := by
  induction properties with
  | nil => simp [ValidNamed]
  | cons p rest ih =>
    obtain ⟨name, schema⟩ := p
    rw [ValidNamed, ih]
    constructor
    · rintro ⟨hhead, hrest⟩ other hmem
      rcases List.mem_cons.mp hmem with heq | hmem
      · cases heq
        exact hhead rfl
      · exact hrest other hmem
    · intro hall
      refine ⟨?_, fun other hmem ↦ hall other (List.mem_cons_of_mem _ hmem)⟩
      rintro rfl
      exact hall schema (List.mem_cons_self ..)

/-! ### Keywords -/

/-- The keyword `type` admits the values of its types. -/
theorem holds_type {types : Value} : Holds t named ("type", types) v ↔ t.Admits types v := .rfl

/-- The keyword `enum` admits its values. -/
theorem holds_enum {values : List Value} :
    Holds t named ("enum", .array values) v ↔ v ∈ values := .rfl

/-- The keyword `anyOf` admits what is valid under one of its schemas. -/
theorem holds_anyOf {schemas : List Value} :
    Holds t named ("anyOf", .array schemas) v ↔ ∃ schema ∈ schemas, Valid t schema v :=
  validAny_iff

/-- The keyword `properties` binds each member by the schemas of its name. -/
theorem holds_properties {properties members : List (String × Value)} :
    Holds t named ("properties", .object properties) (.object members) ↔
      ∀ m ∈ members, ∀ schema, (m.1, schema) ∈ properties → Valid t schema m.2 := by
  show (∀ m ∈ members, ValidNamed t properties m.1 m.2) ↔ _
  simp only [validNamed_iff]

/-- The keyword `required` wants a member for each of its names. -/
theorem holds_required {names : List String} {members : List (String × Value)} :
    Holds t named ("required", .ofStrings names) (.object members) ↔
      ∀ name ∈ names, name ∈ members.map Prod.fst := by
  show (∀ name, .string name ∈ names.map Value.string → name ∈ members.map Prod.fst) ↔ _
  simp

/-- The keyword `additionalProperties` binds each member that has no property of its name. -/
theorem holds_additionalProperties {schema : Value} {members : List (String × Value)} :
    Holds t named ("additionalProperties", schema) (.object members) ↔
      ∀ m ∈ members, m.1 ∉ named → Valid t schema m.2 := .rfl

/-- The keyword `items` binds each item of an array. -/
theorem holds_items {schema : Value} {items : List Value} :
    Holds t named ("items", schema) (.array items) ↔ ∀ x ∈ items, Valid t schema x := .rfl

/-- The keyword `items` does not bind `null`. -/
theorem holds_items_null {schema : Value} : Holds t named ("items", schema) .null := trivial

/-- The keyword `description` binds nothing. -/
theorem holds_description {text : Value} : Holds t named ("description", text) v := trivial

/-- Only `additionalProperties` looks at the named properties. -/
theorem holds_congr {others : List String} {k : String} {w : Value}
    (h : k ≠ "additionalProperties") :
    Holds t others (k, w) v ↔ Holds t named (k, w) v := by
  unfold Holds
  split
  case h_6 heq => exact absurd (congrArg Prod.fst heq) h
  all_goals rfl

/-! ### Schemas -/

/-- The names that a schema has properties for. -/
def propertyNames (s : Schema) : List String := namesOf (s.get? "properties")

/-- A keyword that is set has the new value, the others keep theirs. -/
theorem get?_set (s : Schema) (k x : String) (w : Value) :
    (s.set k w).get? x = if x = k then some w else s.get? x := OrderedMap.get?_insert ..

/-- The empty schema has no keywords. -/
theorem get?_empty (k : String) : Schema.empty.get? k = none := rfl

/-- Validity is what the values of the keywords say. -/
theorem valid_iff_get? :
    Valid t s.toJson v ↔ ∀ k w, s.get? k = some w → Holds t s.propertyNames (k, w) v := by
  rw [toJson, Value.ofFields, Valid, validAll_iff]
  constructor
  · intro hall k w hk
    exact hall (k, w) (OrderedMap.get?_eq_some_iff.mp hk)
  · rintro hall ⟨k, w⟩ hmem
    exact hall k w (OrderedMap.get?_eq_some_iff.mpr hmem)

/-- Setting a new keyword adds what it says. Properties are not set beside a schema of the
additional ones, which they would change. -/
theorem valid_set {k : String} {w : Value} (hnew : s.get? k = none)
    (hfirst : k = "properties" → s.get? "additionalProperties" = none) :
    Valid t (s.set k w).toJson v ↔
      Valid t s.toJson v ∧ Holds t (s.set k w).propertyNames (k, w) v := by
  have hold {x : String} {u : Value} (hx : s.get? x = some u) :
      Holds t (s.set k w).propertyNames (x, u) v ↔ Holds t s.propertyNames (x, u) v := by
    by_cases hadditional : x = "additionalProperties"
    · have hsame : (s.set k w).propertyNames = s.propertyNames := by
        rw [propertyNames, get?_set, if_neg, propertyNames]
        rintro rfl
        rw [hadditional, hfirst rfl] at hx
        cases hx
      rw [hsame]
    · exact holds_congr hadditional
  rw [valid_iff_get?, valid_iff_get?]
  constructor
  · intro hall
    refine ⟨fun x u hx ↦ (hold hx).mp (hall x u ?_), hall k w ?_⟩
    · rw [get?_set, if_neg, hx]
      rintro rfl
      rw [hnew] at hx
      cases hx
    · rw [get?_set, if_pos rfl]
  · rintro ⟨hs, hk⟩ x u hx
    rw [get?_set] at hx
    split at hx
    · next heq =>
      cases hx
      rw [heq]
      exact hk
    · exact (hold hx).mpr (hs x u hx)

/-- A description says nothing. -/
theorem valid_describe {description : Option String} :
    Valid t (s.describe description).toJson v ↔ Valid t s.toJson v := by
  cases description with
  | none => rfl
  | some text =>
    have hnamed : (s.set "description" (.string text)).propertyNames = s.propertyNames := by
      rw [propertyNames, get?_set, if_neg (by decide), propertyNames]
    show Valid t (s.set "description" (.string text)).toJson v ↔ _
    rw [valid_iff_get?, valid_iff_get?, hnamed]
    constructor
    · intro hall k w hk
      by_cases hdescription : k = "description"
      · rw [hdescription]
        exact holds_description
      · exact hall k w (by rw [get?_set, if_neg hdescription, hk])
    · intro hall k w hk
      rw [get?_set] at hk
      split at hk
      · next hdescription =>
        rw [hdescription]
        exact holds_description
      · exact hall k w hk

/-- The schema without keywords accepts everything. -/
theorem valid_empty : Valid t Schema.empty.toJson v := by
  rw [valid_iff_get?]
  intro k w hk
  cases hk

/-- The schema of a type accepts what has the type. -/
theorem valid_ofType {name : String} : Valid t (ofType name).toJson v ↔ t.holds name v := by
  rw [ofType, valid_set rfl (fun _ ↦ rfl), holds_type, Typing.Admits]
  exact and_iff_right valid_empty

end PromptDoc.Schema
