import PromptDoc.Proofs.Schema.Keys
import PromptDoc.Proofs.Schema.Validity
import PromptDoc.Schema.Compile

/-!
# What shorthand accepts

A reading of shorthand without compiling it: which values conform to a node, from the names, the
keys and the nested nodes. A key is about one property, or as the wildcard about all that no key
names; where several keys are about the same, the last one counts. Only a name that is looked up
brings in a schema.
-/

namespace PromptDoc.Shorthand

open Json Schema

/-- A node that is read as shorthand: a text, or a mapping that is no finished JSON Schema. -/
def IsShorthand : Value → Prop
  | .string _ => True
  | .object entries => finished? entries = none
  | _ => False

/-- A lookup gives a schema for a name. -/
def Knows (lookup : Option SchemaLookup) (name : String) (s : Schema) : Prop :=
  ∃ find, lookup = some find ∧ (find name).result = .ok (some s)

/-- A type name accepts a value. -/
def NameAccepts (t : Typing) (lookup : Option SchemaLookup) (name : String) (v : Value) : Prop :=
  if name = "any" then True
  else if name ∈ scalarTypes then t.holds name v
  else ∃ s, Knows lookup name s ∧ Valid t s.toJson v

/-- A type name stands for a schema that has a type: a scalar type other than `any`, or the name of
such a schema. -/
def NameIsTyped (lookup : Option SchemaLookup) (name : String) : Prop :=
  if name = "any" then False
  else if name ∈ scalarTypes then True
  else ∃ s, Knows lookup name s ∧ s.hasType = true

/-- A node that asks for a type: a mapping, or the name of a schema that has one. -/
def IsTyped (lookup : Option SchemaLookup) : Value → Prop
  | .string text => ∃ name, TypePart text name ∧ NameIsTyped lookup name
  | .object _ => True
  | _ => False

/-- What a node behind an annotation accepts, from what the node alone accepts. -/
def AnnotationAccepts (conforms : Value → Prop) : (note : String) → (node v : Value) → Prop
  | "array", _, .array items => ∀ x ∈ items, conforms x
  | "object", _, v => conforms v
  | "enum", .array values, v => v ∈ values
  | _, _, _ => False

/-- What a node under a key accepts, from what the node alone accepts. An optional property accepts
`null` as well, unless its node stands without annotation and asks for no type. -/
inductive KeyAccepts (lookup : Option SchemaLookup) (conforms : Value → Prop) (key : String)
    (node : Value) : Value → Prop
  | plain {v : Value} (hkey : Unannotated key) (h : conforms v) :
    KeyAccepts lookup conforms key node v
  | absent (hkey : Unannotated key) (hoptional : IsOptional key) (htyped : IsTyped lookup node) :
    KeyAccepts lookup conforms key node .null
  | noted {note : String} {v : Value} (hkey : Noted key note)
    (h : AnnotationAccepts conforms note node v) : KeyAccepts lookup conforms key node v
  | notedAbsent {note : String} (hkey : Noted key note) (hoptional : IsOptional key) :
    KeyAccepts lookup conforms key node .null

/-- What the entries of a mapping are about. -/
def slots (entries : List (String × Value)) : List (Option String) :=
  entries.map fun e ↦ slotOf e.1

/-- What decides about a member: its own name if an entry is about it, else the wildcard. -/
def slotIn (entries : List (String × Value)) (name : String) : Option String :=
  if some name ∈ slots entries then some name else none

/-- An entry says that a property must be present. -/
def Demands (entries : List (String × Value)) (name : String) : Prop :=
  ∃ e ∈ entries, slotOf e.1 = some name ∧ ¬ IsOptional e.1

mutual

/-- A value conforms to a node. For a mapping it is an object that has what the entries demand, and
each member is accepted by what decides about it. -/
def Conforms (t : Typing) (lookup : Option SchemaLookup) : (node v : Value) → Prop
  | .string text, v => ∃ name, TypePart text name ∧ NameAccepts t lookup name v
  | .object entries, v =>
    ∃ members, v = .object members ∧
      (∀ name, Demands entries name → name ∈ members.map Prod.fst) ∧
        ∀ m ∈ members, SlotAccepts t lookup (slotIn entries m.1) entries m.2
  | _, _ => False
termination_by structural node => node

/-- The last entry that is about a slot accepts a value, if there is one. -/
def SlotAccepts (t : Typing) (lookup : Option SchemaLookup) (slot : Option String) :
    (entries : List (String × Value)) → Value → Prop
  | [], _ => True
  | (key, node) :: rest, v =>
    if slot ∈ slots rest then SlotAccepts t lookup slot rest v
    else slotOf key = slot → KeyAccepts lookup (Conforms t lookup node) key node v
termination_by structural entries => entries

end

variable {t : Typing} {lookup : Option SchemaLookup} {conforms : Value → Prop} {v : Value}

/-- A lookup knows one schema at most for a name. -/
theorem Knows.unique {name : String} {s s' : Schema} (h : Knows lookup name s)
    (h' : Knows lookup name s') : s = s' := by
  obtain ⟨find, rfl, hs⟩ := h
  obtain ⟨find', hfind, hs'⟩ := h'
  cases hfind
  rw [hs] at hs'
  cases hs'
  rfl

/-- Behind `array` stand the items of a list. -/
theorem annotationAccepts_array {node : Value} :
    AnnotationAccepts conforms "array" node v ↔
      ∃ items, v = .array items ∧ ∀ x ∈ items, conforms x := by
  cases v <;> simp [AnnotationAccepts]

/-- Entries demand what the first or one of the others demands. -/
theorem demands_cons {key : String} {node : Value} {rest : List (String × Value)} {name : String} :
    Demands ((key, node) :: rest) name ↔
      (slotOf key = some name ∧ ¬ IsOptional key) ∨ Demands rest name := by
  simp [Demands]

/-- The first entry is about the first slot. -/
theorem slots_cons {key : String} {node : Value} {rest : List (String × Value)} :
    slots ((key, node) :: rest) = slotOf key :: slots rest := rfl

/-- Under the wildcard stands the node alone. -/
theorem keyAccepts_of_wildcard {key : String} {node : Value} (h : Key.ofText key = .wildcard) :
    KeyAccepts lookup conforms key node v ↔ conforms v := by
  have hkey : Unannotated key := .inl (ofText_eq_wildcard_iff.mp h)
  have hrequired : ¬ IsOptional key := by
    rw [ofText_eq_wildcard_iff.mp h]
    decide
  constructor
  · intro haccepts
    cases haccepts with
    | plain _ hv => exact hv
    | absent _ hoptional _ => exact absurd hoptional hrequired
    | noted hnoted _ => exact absurd hkey hnoted.not_unannotated
    | notedAbsent hnoted _ => exact absurd hkey hnoted.not_unannotated
  · exact .plain hkey

/-- What a property without annotation accepts. -/
theorem keyAccepts_of_plain {key name : String} {optional : Bool} {node : Value}
    (h : Key.ofText key = .property name optional none) :
    KeyAccepts lookup conforms key node v ↔
      conforms v ∨ optional = true ∧ IsTyped lookup node ∧ v = .null := by
  have hkey : Unannotated key := unannotated_iff.mpr (.inr ⟨name, optional, h⟩)
  have hoptional_iff := (slotOf_of_property h).2
  constructor
  · intro haccepts
    cases haccepts with
    | plain _ hv => exact .inl hv
    | absent _ hoptional htyped => exact .inr ⟨hoptional_iff.mp hoptional, htyped, rfl⟩
    | noted hnoted _ => exact absurd hkey hnoted.not_unannotated
    | notedAbsent hnoted _ => exact absurd hkey hnoted.not_unannotated
  · rintro (hv | ⟨hoptional, htyped, rfl⟩)
    · exact .plain hkey hv
    · exact .absent hkey (hoptional_iff.mpr hoptional) htyped

/-- What a property with an annotation accepts. -/
theorem keyAccepts_of_annotated {key name : String} {optional : Bool} {note : Described}
    {node : Value} (h : Key.ofText key = .property name optional (some note)) :
    KeyAccepts lookup conforms key node v ↔
      AnnotationAccepts conforms note.name node v ∨ optional = true ∧ v = .null := by
  have hkey : Noted key note.name := noted_iff.mpr ⟨name, optional, note, h, rfl⟩
  have hoptional_iff := (slotOf_of_property h).2
  constructor
  · intro haccepts
    cases haccepts with
    | plain hplain _ => exact absurd hplain hkey.not_unannotated
    | absent hplain _ _ => exact absurd hplain hkey.not_unannotated
    | noted hnoted hv => exact .inl (hkey.unique hnoted ▸ hv)
    | notedAbsent _ hoptional => exact .inr ⟨hoptional_iff.mp hoptional, rfl⟩
  · rintro (hv | ⟨hoptional, rfl⟩)
    · exact .noted hkey hv
    · exact .notedAbsent hkey (hoptional_iff.mpr hoptional)

/-- Entries that are not about a slot say nothing of it. -/
theorem slotAccepts_of_notMem {slot : Option String} {entries : List (String × Value)}
    (h : slot ∉ slots entries) : SlotAccepts t lookup slot entries v := by
  cases entries with
  | nil =>
    rw [SlotAccepts]
    trivial
  | cons e rest =>
    obtain ⟨key, node⟩ := e
    rw [slots_cons, List.mem_cons, not_or] at h
    rw [SlotAccepts, if_neg h.2]
    exact fun heq ↦ absurd heq.symm h.1

/-- Of the entries about a slot the last one decides. -/
theorem slotAccepts_cons_slot {key : String} {node : Value} {rest : List (String × Value)}
    (h : slotOf key ∉ slots rest) :
    SlotAccepts t lookup (slotOf key) ((key, node) :: rest) v ↔
      KeyAccepts lookup (Conforms t lookup node) key node v := by
  rw [SlotAccepts, if_neg h]
  exact forall_prop_of_true rfl

end PromptDoc.Shorthand
