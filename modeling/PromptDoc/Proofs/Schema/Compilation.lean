import PromptDoc.Proofs.Schema.Conformance

/-!
# Validity under compiled shorthand

The schema that a shorthand node compiles to, against the values that conform to the node. The
schemas of optional values, lists, enumerations and mappings are read one by one. Adding an entry to
a mapping under construction replaces what is known of one slot and nothing else, so a mapping has
at each slot what its last entry about it accepts. Main statement: a value is valid under the schema
of a node exactly when it conforms to the node (`valid_compile_iff`).
-/

namespace PromptDoc.Shorthand

open Json Schema

variable {t : Typing} {lookup : Option SchemaLookup} {conforms : Value → Prop} {v : Value}

/-! ### Schemas of optional values, lists and enumerations -/

/-- Adding `null` to a schema accepts `null` besides. -/
theorem valid_nullable {s : Schema} :
    Valid t (nullable s).toJson v ↔ Valid t s.toJson v ∨ v = .null := by
  rw [nullable, valid_describe, valid_set rfl (fun _ ↦ rfl), holds_anyOf]
  simp [valid_empty, valid_ofType, t.null_iff]

/-- A list of items, or `null` if that may be. -/
theorem valid_arrayOf {optional : Bool} {items : Schema} :
    Valid t (arrayOf optional items).toJson v ↔
      (∃ xs, v = .array xs ∧ ∀ x ∈ xs, Valid t items.toJson x) ∨ optional = true ∧ v = .null := by
  cases optional with
  | false =>
    rw [arrayOf, if_neg Bool.false_ne_true, valid_set rfl (fun _ ↦ rfl), valid_ofType, t.array_iff]
    constructor
    · rintro ⟨⟨xs, rfl⟩, hitems⟩
      exact .inl ⟨xs, rfl, holds_items.mp hitems⟩
    · rintro (⟨xs, rfl, hitems⟩ | ⟨hoptional, -⟩)
      · exact ⟨⟨xs, rfl⟩, holds_items.mpr hitems⟩
      · cases hoptional
  | true =>
    rw [arrayOf, if_pos rfl, valid_set rfl (fun _ ↦ rfl), valid_set rfl (fun _ ↦ rfl), holds_anyOf]
    have hkinds : (∃ schema ∈ [(ofType "array").toJson, (ofType "null").toJson], Valid t schema v) ↔
        (∃ xs, v = .array xs) ∨ v = .null := by
      simp [valid_ofType, t.array_iff, t.null_iff]
    rw [hkinds]
    constructor
    · rintro ⟨⟨-, hitems⟩, ⟨xs, rfl⟩ | rfl⟩
      · exact .inl ⟨xs, rfl, holds_items.mp hitems⟩
      · exact .inr ⟨rfl, rfl⟩
    · rintro (⟨xs, rfl, hitems⟩ | ⟨-, rfl⟩)
      · exact ⟨⟨valid_empty, holds_items.mpr hitems⟩, .inl ⟨xs, rfl⟩⟩
      · exact ⟨⟨valid_empty, holds_items_null⟩, .inr rfl⟩

/-- One of the listed values, or `null` if that may be. -/
theorem valid_enumOf {optional : Bool} {values : List Value} :
    Valid t (enumOf optional values).toJson v ↔ v ∈ values ∨ optional = true ∧ v = .null := by
  rw [enumOf, valid_set rfl (fun _ ↦ rfl), holds_enum, and_iff_right valid_empty]
  split
  · next h =>
    have hoptional : optional = true := (Bool.and_eq_true_iff.mp h).1
    simp [hoptional]
  · next h =>
    refine (or_iff_left_of_imp ?_).symm
    rintro ⟨rfl, rfl⟩
    simpa using h

/-! ### Named types -/

/-- A name that is looked up gives the schema that the lookup knows. -/
theorem named_eq_ok_iff {name : String} {s : Schema} :
    (named lookup name).result = .ok s ↔ Knows lookup name s := by
  cases lookup with
  | none =>
    constructor
    · intro h
      cases h
    · rintro ⟨find, hfind, -⟩
      cases hfind
  | some find =>
    rw [named, Traced.result_bind_eq_ok_iff]
    constructor
    · rintro ⟨found, hfound, h⟩
      cases found with
      | none => cases h
      | some s' =>
        cases h
        exact ⟨find, rfl, Traced.result_mapError_eq_ok_iff.mp hfound⟩
    · rintro ⟨find', hfind, hs⟩
      cases hfind
      exact ⟨some s, Traced.result_mapError_eq_ok_iff.mpr hs, rfl⟩

/-- What a type text compiles to, less its description. -/
theorem ofTypeText_eq_ok {text : String} {s : Schema}
    (h : (ofTypeText lookup text).result = .ok s) :
    let name := (Described.ofText text).name
    ∃ base, s = base.describe (Described.ofText text).description ∧
      if name = "any" then base = .empty
      else if name ∈ scalarTypes then base = ofType name
      else Knows lookup name base := by
  intro name
  have hmem : isScalarType name = true ↔ name ∈ scalarTypes := List.contains_iff_mem
  rw [ofTypeText] at h
  split at h
  · next hscalar =>
    cases h
    refine ⟨scalar name, rfl, ?_⟩
    rw [if_pos (hmem.mp hscalar), scalar]
    split
    · rfl
    · rfl
  · next hscalar =>
    obtain ⟨base, hbase, hs⟩ := Traced.result_bind_eq_ok_iff.mp h
    cases hs
    have hany : name ≠ "any" := by
      intro hany
      exact hscalar (by rw [show (Described.ofText text).name = "any" from hany]; decide)
    refine ⟨base, rfl, ?_⟩
    rw [if_neg hany, if_neg (mt hmem.mpr hscalar)]
    exact named_eq_ok_iff.mp hbase

/-- The schema of a type text accepts what the name accepts. -/
theorem valid_ofTypeText {text : String} {s : Schema}
    (h : (ofTypeText lookup text).result = .ok s) :
    Valid t s.toJson v ↔ ∃ name, TypePart text name ∧ NameAccepts t lookup name v := by
  obtain ⟨base, rfl, hbase⟩ := ofTypeText_eq_ok h
  rw [exists_typePart_iff, valid_describe, NameAccepts]
  split
  · next hany =>
    rw [if_pos hany] at hbase
    rw [hbase]
    exact iff_true_intro valid_empty
  · next hany =>
    rw [if_neg hany] at hbase
    split
    · next hscalar =>
      rw [if_pos hscalar] at hbase
      rw [hbase, valid_ofType]
    · next hscalar =>
      rw [if_neg hscalar] at hbase
      constructor
      · intro hv
        exact ⟨base, hbase, hv⟩
      · rintro ⟨s', hs', hv⟩
        rwa [hbase.unique hs']

private theorem hasType_describe {s : Schema} {description : Option String} :
    (s.describe description).hasType = s.hasType := by
  cases description with
  | none => rfl
  | some text =>
    show (s.set "description" (.string text)).fields.contains "type" = s.fields.contains "type"
    rw [OrderedMap.contains, OrderedMap.contains]
    congr 1
    exact (get?_set s ..).trans (if_neg (by decide))

/-! ### Schemas of mappings -/

/-- The schema of a draft begins with a type and the properties. -/
def Draft.base (d : Draft) : Schema := (ofType "object").set "properties" (.ofFields d.properties)

/-- The schema of a draft less that of the additional properties. -/
def Draft.core (d : Draft) : Schema :=
  if d.required.isEmpty then d.base else d.base.set "required" (.ofStrings d.required.keys)

/-- The schema of a draft has that of the additional properties last. -/
theorem Draft.schema_eq (d : Draft) :
    d.schema =
      match d.additional with
      | some s => d.core.set "additionalProperties" s.toJson
      | none => d.core := rfl

/-- Required and additional properties are all that the schema of a draft has beside its base. -/
theorem get?_schema {d : Draft} {k : String} (hrequired : k ≠ "required")
    (hadditional : k ≠ "additionalProperties") : d.schema.get? k = d.base.get? k := by
  have hcore : d.core.get? k = d.base.get? k := by
    rw [Draft.core]
    split
    · rfl
    · rw [get?_set, if_neg hrequired]
  rw [Draft.schema_eq]
  split
  · rw [get?_set, if_neg hadditional, hcore]
  · exact hcore

private theorem get?_schema_type (d : Draft) : d.schema.get? "type" = some (.string "object") :=
  get?_schema (by decide) (by decide)

private theorem propertyNames_schema (d : Draft) : d.schema.propertyNames = d.properties.keys := by
  rw [propertyNames, get?_schema (by decide) (by decide)]
  rfl

private theorem valid_base {d : Draft} {members : List (String × Value)} :
    Valid t d.base.toJson (.object members) ↔
      ∀ m ∈ members, ∀ s, d.properties.get? m.1 = some s → Valid t s m.2 := by
  rw [Draft.base, valid_set rfl (fun _ ↦ rfl), valid_ofType, t.object_iff, Value.ofFields,
    holds_properties, and_iff_right ⟨members, rfl⟩]
  simp only [OrderedMap.get?_eq_some_iff]

private theorem valid_core {d : Draft} {members : List (String × Value)} :
    Valid t d.core.toJson (.object members) ↔
      (∀ name ∈ d.required.keys, name ∈ members.map Prod.fst) ∧
        ∀ m ∈ members, ∀ s, d.properties.get? m.1 = some s → Valid t s m.2 := by
  rw [Draft.core, ← valid_base]
  split
  · next hempty =>
    have hkeys : d.required.keys = [] := by
      rw [SortedMap.keys, List.isEmpty_iff.mp hempty, List.map_nil]
    simp [hkeys]
  · rw [valid_set rfl (fun _ ↦ rfl), holds_required, and_comm]

/-- The schema of additional properties is for the members that are not among the properties. -/
theorem valid_schema_object {d : Draft} {members : List (String × Value)} :
    Valid t d.schema.toJson (.object members) ↔
      Valid t d.core.toJson (.object members) ∧
        ∀ m ∈ members, m.1 ∉ d.properties.keys →
          ∀ s, d.additional = some s → Valid t s.toJson m.2 := by
  have hnames := propertyNames_schema d
  rw [Draft.schema_eq] at hnames ⊢
  cases hadditional : d.additional with
  | none => simp
  | some s =>
    have hnew : d.core.get? "additionalProperties" = none := by
      rw [Draft.core]
      split
      · rfl
      · rfl
    simp only [hadditional] at hnames
    rw [valid_set hnew (fun h ↦ absurd h (by decide)), hnames, holds_additionalProperties]
    simp only [Option.some.injEq, forall_eq']

/-- The schema that a draft has for a slot. -/
def Draft.schemaAt (d : Draft) : Option String → Option Value
  | some name => d.properties.get? name
  | none => d.additional.map Schema.toJson

/-- The slot of a draft that decides about a member. -/
def Draft.slotOf (d : Draft) (name : String) : Option String :=
  if name ∈ d.properties.keys then some name else none

/-- The schema that decides about a member is that of its property, or without one the schema of
the additional properties. -/
theorem forall_schemaAt_slotOf {d : Draft} {name : String} {p : Value → Prop} :
    (∀ s, d.schemaAt (d.slotOf name) = some s → p s) ↔
      (∀ s, d.properties.get? name = some s → p s) ∧
        (name ∉ d.properties.keys → ∀ s, d.additional = some s → p s.toJson) := by
  rw [Draft.slotOf]
  split
  · next hmem => simp [Draft.schemaAt, hmem]
  · next hmem =>
    have hnone : d.properties.get? name = none := by
      rw [Option.eq_none_iff_forall_ne_some]
      exact fun s hs ↦ hmem (OrderedMap.mem_keys_iff.mpr ⟨s, hs⟩)
    simp [Draft.schemaAt, hmem, hnone]

/-- The schema of a draft accepts the objects that have the required properties and whose members
are each valid under the schema that decides about them. -/
theorem valid_schema_iff {d : Draft} :
    Valid t d.schema.toJson v ↔
      ∃ members, v = .object members ∧
        (∀ name ∈ d.required.keys, name ∈ members.map Prod.fst) ∧
          ∀ m ∈ members, ∀ s, d.schemaAt (d.slotOf m.1) = some s → Valid t s m.2 := by
  have hobject (members : List (String × Value)) : Valid t d.schema.toJson (.object members) ↔
      (∀ name ∈ d.required.keys, name ∈ members.map Prod.fst) ∧
        ∀ m ∈ members, ∀ s, d.schemaAt (d.slotOf m.1) = some s → Valid t s m.2 := by
    rw [valid_schema_object, valid_core, and_assoc]
    simp only [forall_schemaAt_slotOf, forall_and]
  constructor
  · intro hv
    have htype : t.holds "object" v :=
      holds_type.mp (valid_iff_get?.mp hv "type" (.string "object") (get?_schema_type d))
    obtain ⟨members, rfl⟩ := (t.object_iff v).mp htype
    exact ⟨members, rfl, (hobject members).mp hv⟩
  · rintro ⟨members, rfl, h⟩
    exact (hobject members).mpr h

/-! ### Keys -/

/-- The schema of a node has a type when the node asks for one. -/
theorem hasType_ofNode {node : Value} {s : Schema} (h : (ofNode lookup node).result = .ok s) :
    s.hasType = true ↔ IsTyped lookup node := by
  cases node with
  | string text =>
    rw [ofNode] at h
    obtain ⟨base, rfl, hbase⟩ := ofTypeText_eq_ok h
    rw [hasType_describe, IsTyped, exists_typePart_iff, NameIsTyped]
    split
    · next hany =>
      rw [if_pos hany] at hbase
      rw [hbase]
      exact iff_of_false (fun h ↦ by cases h) id
    · next hany =>
      rw [if_neg hany] at hbase
      split
      · next hscalar =>
        rw [if_pos hscalar] at hbase
        rw [hbase]
        exact iff_of_true rfl trivial
      · next hscalar =>
        rw [if_neg hscalar] at hbase
        constructor
        · intro htype
          exact ⟨base, hbase, htype⟩
        · rintro ⟨s', hs', htype⟩
          rwa [hbase.unique hs']
  | object entries =>
    rw [ofNode] at h
    obtain ⟨d, -, rfl⟩ := Traced.result_map_eq_ok_iff.mp h
    exact iff_of_true (congrArg Option.isSome (get?_schema_type d)) trivial
  | null => cases h
  | bool b => cases h
  | number n => cases h
  | array items => cases h

/-- A schema stands for a node: it accepts the same values, and has a type if the node asks for
one. -/
structure StandsFor (t : Typing) (lookup : Option SchemaLookup) (conforms : Value → Prop)
    (node : Value) (s : Schema) : Prop where
  valid_iff : ∀ v, Valid t s.toJson v ↔ conforms v
  hasType_iff : s.hasType = true ↔ IsTyped lookup node

section Property

variable {key : String} {optional : Bool} {node : Value} {s : Schema}
  {compiled : Traced SchemaError Schema}
  (hcompiled : ∀ s', compiled.result = .ok s' → StandsFor t lookup conforms node s')

include hcompiled

private theorem valid_property_plain
    (h : (property key optional none node compiled).result = .ok s) :
    Valid t s.toJson v ↔ conforms v ∨ optional = true ∧ IsTyped lookup node ∧ v = .null := by
  rw [property] at h
  obtain ⟨s', hs', h⟩ := Traced.result_bind_eq_ok_iff.mp h
  cases h
  have hnode := hcompiled s' hs'
  split
  · next hnull =>
    obtain ⟨hoptional, htype⟩ := Bool.and_eq_true_iff.mp hnull
    rw [valid_nullable, hnode.valid_iff]
    simp [hoptional, hnode.hasType_iff.mp htype]
  · next hnull =>
    rw [hnode.valid_iff]
    refine (or_iff_left_of_imp ?_).symm
    rintro ⟨hoptional, htyped, -⟩
    exact absurd (Bool.and_eq_true_iff.mpr ⟨hoptional, hnode.hasType_iff.mpr htyped⟩) hnull

private theorem valid_property_annotated {note : Described}
    (h : (property key optional (some note) node compiled).result = .ok s) :
    Valid t s.toJson v ↔
      AnnotationAccepts conforms note.name node v ∨ optional = true ∧ v = .null := by
  unfold property at h
  dsimp only at h
  split at h
  · next harray =>
    obtain ⟨s', hs', h⟩ := Traced.result_bind_eq_ok_iff.mp h
    obtain ⟨items, hitems, rfl⟩ := Traced.result_map_eq_ok_iff.mp hs'
    cases h
    rw [valid_describe, valid_arrayOf, harray, annotationAccepts_array]
    simp only [(hcompiled items hitems).valid_iff]
  · split at h
    · next hobject =>
      obtain ⟨s', hs', h⟩ := Traced.result_bind_eq_ok_iff.mp h
      obtain ⟨inner, hinner, rfl⟩ := Traced.result_map_eq_ok_iff.mp hs'
      cases h
      rw [valid_describe, hobject, AnnotationAccepts]
      split
      · next hoptional =>
        rw [valid_nullable, (hcompiled inner hinner).valid_iff]
        simp [hoptional]
      · next hoptional =>
        rw [(hcompiled inner hinner).valid_iff]
        simp [hoptional]
    · split at h
      · next henum =>
        -- The list of an `enum` is not compiled: it would not compile as a node.
        split at h
        · next values =>
          cases h
          rw [valid_describe, valid_enumOf, henum, AnnotationAccepts]
        · cases h
      · cases h

/-- The schema of a property accepts what its key makes of the node. -/
theorem valid_property {name : String} {parenthetical : Option Described}
    (hkey : Key.ofText key = .property name optional parenthetical)
    (h : (property key optional parenthetical node compiled).result = .ok s) :
    Valid t s.toJson v ↔ KeyAccepts lookup conforms key node v := by
  cases parenthetical with
  | none => exact (valid_property_plain hcompiled h).trans (keyAccepts_of_plain hkey).symm
  | some note =>
    exact (valid_property_annotated hcompiled h).trans (keyAccepts_of_annotated hkey).symm

/-- What adding an entry changes: its own slot, and whether its property is required. -/
theorem add_eq_ok {d d' : Draft} (h : (d.add key node compiled).result = .ok d') :
    (∃ s, (∀ v, Valid t s v ↔ KeyAccepts lookup conforms key node v) ∧
      ∀ slot, d'.schemaAt slot = if slot = slotOf key then some s else d.schemaAt slot) ∧
    ∀ name, name ∈ d'.required.keys ↔
      name ∈ d.required.keys ∨ slotOf key = some name ∧ ¬ IsOptional key := by
  unfold Draft.add at h
  split at h
  · next hkey =>
    obtain ⟨s, hs, h⟩ := Traced.result_bind_eq_ok_iff.mp h
    cases h
    have hslot : slotOf key = none := if_pos (ofText_eq_wildcard_iff.mp hkey)
    refine ⟨⟨s.toJson, ?_, ?_⟩, ?_⟩
    · intro v
      rw [keyAccepts_of_wildcard hkey, (hcompiled s hs).valid_iff]
    · rintro (_ | name)
      · simp [Draft.schemaAt, hslot]
      · simp [Draft.schemaAt, hslot]
    · intro name
      simp [hslot]
  · next name optional parenthetical hkey =>
    obtain ⟨s, hs, h⟩ := Traced.result_bind_eq_ok_iff.mp h
    cases h
    obtain ⟨hslot, hoptional⟩ := slotOf_of_property hkey
    refine ⟨⟨s.toJson, ?_, ?_⟩, ?_⟩
    · intro v
      rw [valid_property hcompiled hkey hs]
    · rintro (_ | other)
      · simp [Draft.schemaAt, hslot]
      · simp [Draft.schemaAt, hslot, OrderedMap.get?_insert]
    · intro other
      rw [hslot, hoptional]
      cases optional with
      | true => simp
      | false => simp [SortedMap.mem_keys_insert, eq_comm, or_comm]

end Property

/-! ### Mappings -/

/-- A draft after entries were added: each slot of theirs has the schema of what the last entry
about it accepts, the other slots are as before, and demanded properties are required. -/
structure Draft.Added (t : Typing) (lookup : Option SchemaLookup)
    (entries : List (String × Value)) (d d' : Draft) : Prop where
  schemaAt_of_mem : ∀ slot ∈ slots entries, ∃ s, d'.schemaAt slot = some s ∧
    ∀ v, Valid t s v ↔ SlotAccepts t lookup slot entries v
  schemaAt_of_notMem : ∀ slot, slot ∉ slots entries → d'.schemaAt slot = d.schemaAt slot
  mem_required_iff : ∀ name, name ∈ d'.required.keys ↔
    name ∈ d.required.keys ∨ Demands entries name

namespace Draft.Added

variable {entries : List (String × Value)} {d d' next : Draft}

/-- No entries change nothing. -/
theorem nil : Added t lookup [] d d where
  schemaAt_of_mem slot hslot := absurd hslot List.not_mem_nil
  schemaAt_of_notMem _ _ := rfl
  mem_required_iff name := by simp [Demands]

/-- An entry that is added before others keeps its slot only if none of them is about it. -/
theorem cons {key : String} {node : Value} (hrest : Added t lookup entries next d')
    (hadd : (d.add key node (ofNode lookup node)).result = .ok next)
    (hnode : ∀ s, (ofNode lookup node).result = .ok s →
      StandsFor t lookup (Conforms t lookup node) node s) :
    Added t lookup ((key, node) :: entries) d d' := by
  obtain ⟨⟨s, hs, hslots⟩, hrequired⟩ := add_eq_ok hnode hadd
  constructor
  · intro slot hmem
    by_cases hlater : slot ∈ slots entries
    · obtain ⟨s', hs', hvalid⟩ := hrest.schemaAt_of_mem slot hlater
      refine ⟨s', hs', fun v ↦ ?_⟩
      rw [hvalid, SlotAccepts, if_pos hlater]
    · rw [slots_cons, List.mem_cons] at hmem
      have hslot := hmem.resolve_right hlater
      subst hslot
      refine ⟨s, ?_, fun v ↦ ?_⟩
      · rw [hrest.schemaAt_of_notMem _ hlater, hslots, if_pos rfl]
      · rw [hs, slotAccepts_cons_slot hlater]
  · intro slot hmem
    rw [slots_cons, List.mem_cons, not_or] at hmem
    rw [hrest.schemaAt_of_notMem slot hmem.2, hslots, if_neg hmem.1]
  · intro name
    rw [hrest.mem_required_iff, hrequired, demands_cons, or_assoc]

section Fresh

variable (h : Added t lookup entries {} d)

include h

/-- The entries and their draft agree on what decides about a member. -/
theorem slotOf_eq (name : String) : d.slotOf name = slotIn entries name := by
  have hnamed : name ∈ d.properties.keys ↔ some name ∈ slots entries := by
    rw [OrderedMap.mem_keys_iff]
    constructor
    · rintro ⟨s, hs⟩
      refine Decidable.byContradiction fun hmem ↦ ?_
      have hnone : d.schemaAt (some name) = none := h.schemaAt_of_notMem _ hmem
      rw [Draft.schemaAt, hs] at hnone
      cases hnone
    · intro hmem
      obtain ⟨s, hs, -⟩ := h.schemaAt_of_mem _ hmem
      exact ⟨s, hs⟩
  simp only [Draft.slotOf, slotIn, hnamed]

/-- The draft has the schema of what the entries accept at each slot. -/
theorem forall_schemaAt (slot : Option String) :
    (∀ s, d.schemaAt slot = some s → Valid t s v) ↔ SlotAccepts t lookup slot entries v := by
  by_cases hmem : slot ∈ slots entries
  · obtain ⟨s, hs, hvalid⟩ := h.schemaAt_of_mem slot hmem
    rw [← hvalid, hs]
    simp
  · rw [h.schemaAt_of_notMem slot hmem]
    refine iff_of_true ?_ (slotAccepts_of_notMem hmem)
    intro s hs
    cases slot with
    | none => cases hs
    | some name => cases hs

/-- The schema of a mapping accepts what conforms to the mapping. -/
theorem valid_schema : Valid t d.schema.toJson v ↔ Conforms t lookup (.object entries) v := by
  have hrequired (name : String) : name ∈ d.required.keys ↔ Demands entries name :=
    (h.mem_required_iff name).trans (or_iff_right List.not_mem_nil)
  rw [valid_schema_iff, Conforms]
  simp only [h.slotOf_eq, h.forall_schemaAt, hrequired]

end Fresh

end Draft.Added

mutual

/-- The schema of a node accepts what conforms to the node. -/
theorem valid_ofNode : (node : Value) → {s : Schema} → (ofNode lookup node).result = .ok s →
    ∀ v, Valid t s.toJson v ↔ Conforms t lookup node v
  | .string text, s, h, v => by
    rw [ofNode] at h
    rw [Conforms]
    exact valid_ofTypeText h
  | .object entries, s, h, v => by
    rw [ofNode] at h
    obtain ⟨d, hd, rfl⟩ := Traced.result_map_eq_ok_iff.mp h
    exact (added_addAll entries hd).valid_schema
  | .null, s, h, v => by cases h
  | .bool _, s, h, v => by cases h
  | .number _, s, h, v => by cases h
  | .array _, s, h, v => by cases h

/-- Adding the entries of a mapping gives a draft that has them. -/
theorem added_addAll : (entries : List (String × Value)) → {d d' : Draft} →
    (addAll lookup d entries).result = .ok d' → d.Added t lookup entries d'
  | [], d, d', h => by
    rw [addAll] at h
    cases h
    exact .nil
  | (key, node) :: rest, d, d', h => by
    rw [addAll] at h
    obtain ⟨next, hnext, h⟩ := Traced.result_bind_eq_ok_iff.mp h
    exact (added_addAll rest h).cons hnext fun s hs ↦ ⟨valid_ofNode node hs, hasType_ofNode hs⟩

end

/-- A shorthand node that compiles gives a schema that accepts what conforms to the node. -/
theorem valid_compile_iff (t : Typing) (lookup : Option SchemaLookup) {node : Value}
    (hnode : IsShorthand node) {s : Schema} (h : (compile lookup node).result = .ok (some s))
    (v : Value) : Valid t s.toJson v ↔ Conforms t lookup node v := by
  have hs : (ofNode lookup node).result = .ok s := by
    cases node with
    | string text =>
      obtain ⟨s', hs', heq⟩ := Traced.result_map_eq_ok_iff.mp h
      cases heq
      exact hs'
    | object entries =>
      rw [compile, show finished? entries = none from hnode] at h
      obtain ⟨s', hs', heq⟩ := Traced.result_map_eq_ok_iff.mp h
      cases heq
      exact hs'
    | null => exact hnode.elim
    | bool b => exact hnode.elim
    | number n => exact hnode.elim
    | array items => exact hnode.elim
  exact valid_ofNode node hs v

/-- A mapping with an optional property, a list, a name to look up and a wildcard. -/
def person : Value :=
  .object [("name", .string "string, in full"), ("age?", .string "integer"),
    ("tags?(array)", .string "string"), ("home", .string "Address"), ("(*)", .string "any")]

/-- A lookup that knows addresses. -/
def addresses : SchemaLookup := fun name ↦
  pure (if name = "Address" then some (ofType "string") else none)

/-- The mapping compiles, and its schema accepts what conforms to it. -/
theorem valid_compile_person :
    IsShorthand person ∧ ∃ s, (compile (some addresses) person).result = .ok (some s) ∧
      ∀ v, Valid .json s.toJson v ↔ Conforms .json (some addresses) person v := by
  have hnode : IsShorthand person := by
    show finished? _ = none
    decide
  have hrun : (compile (some addresses) person).result.toOption.join.isSome = true := by
    decide +kernel
  obtain ⟨s, hs⟩ := Option.isSome_iff_exists.mp hrun
  have hok := Traced.result_eq_ok_of_toOption (Option.join_eq_some_iff.mp hs)
  exact ⟨hnode, s, hok, valid_compile_iff .json (some addresses) hnode hok⟩

end PromptDoc.Shorthand
