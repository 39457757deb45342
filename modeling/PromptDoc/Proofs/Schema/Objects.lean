import PromptDoc.Proofs.Schema.Compilation

/-!
# The object schemas of mappings

The schema that a shorthand mapping compiles to, by its fields: which properties it lists, which of
them it requires and whether it is open to others. Several keys may be about one property; the last
one gives its schema, yet it stays required if any of them says so. Main statement: every mapping in
a node has such an object schema, and for the mappings that no later key replaces it stands in the
schema of the node, at the place that their keys lead to (`compile_objectSchemas`).
-/

namespace PromptDoc.Shorthand

open Json Schema

/-! ### Properties of a mapping -/

/-- The keys of a mapping other than the wildcard. -/
def propertyKeys (entries : List (String × Value)) : List String :=
  (entries.map Prod.fst).filter (· ≠ wildcardText)

/-- The properties that the keys of a mapping name, each as often as it is named. -/
def namedProperties (entries : List (String × Value)) : List String :=
  (propertyKeys entries).map propertyOf

/-- A key says that a property must be present. -/
def Requires (entries : List (String × Value)) (name : String) : Prop :=
  ∃ key ∈ propertyKeys entries, ¬ IsOptional key ∧ propertyOf key = name

/-- The object schema of a mapping. -/
structure IsObjectSchemaOf (entries : List (String × Value)) (schema : Value) : Prop where
  type_eq : schema.field? "type" = some (.string "object")
  /-- Each property is listed once, where it is first named. -/
  properties_eq : ∃ fields, schema.field? "properties" = some (.object fields) ∧
    fields.map Prod.fst = (namedProperties entries).eraseDups
  isSome_required_iff : (schema.field? "required").isSome ↔
    ∃ key ∈ propertyKeys entries, ¬ IsOptional key
  required_eq : ∀ v, schema.field? "required" = some v → ∃ names, v = .ofStrings names ∧
    names.Pairwise (· < ·) ∧ names.Nodup ∧ names ⊆ namedProperties entries ∧
      ∀ name, name ∈ names ↔ Requires entries name
  isSome_additional_iff : (schema.field? "additionalProperties").isSome ↔
    wildcardText ∈ entries.map Prod.fst

/-! ### Nested mappings -/

/-- A mapping is nested in another, at any depth. -/
inductive Nested : (entries inner : List (String × Value)) → Prop
  | self {entries : List (String × Value)} : Nested entries entries
  | under {entries inner innermost : List (String × Value)} {key : String}
    (hmem : (key, .object inner) ∈ entries) (h : Nested inner innermost) : Nested entries innermost

/-- The keys that lead to a mapping that is nested in another, where no key on the way is about the
same as a later one of its mapping. -/
inductive LeadsTo : (entries : List (String × Value)) → (path : List String) →
    (inner : List (String × Value)) → Prop
  | self {entries : List (String × Value)} : LeadsTo entries [] entries
  | under {before after inner innermost : List (String × Value)} {key : String}
    {path : List String} (hlast : slotOf key ∉ slots after)
    (h : LeadsTo inner path innermost) :
    LeadsTo (before ++ (key, .object inner) :: after) (key :: path) innermost

/-- The schema that an object schema has for a property, or for those that it does not list. -/
def slotSchema? (slot : Option String) (schema : Value) : Option Value :=
  match slot with
  | none => schema.field? "additionalProperties"
  | some name => (schema.field? "properties").bind (Value.field? name)

/-- The schema of a mapping in what its key makes of it: the items of a list, or the first of the
schemas that an optional property allows. -/
def unwrapped? (key : String) (schema : Value) : Option Value :=
  if Noted key "array" then schema.field? "items"
  else if IsOptional key then ((schema.field? "anyOf").bind Value.items?).bind List.head?
  else some schema

/-- What stands in an object schema at the place that the keys lead to. -/
def schemaAlong? : (path : List String) → (schema : Value) → Option Value
  | [], schema => some schema
  | key :: path, schema =>
    ((slotSchema? (slotOf key) schema).bind (unwrapped? key)).bind (schemaAlong? path)

/-! ### What mappings demand -/

variable {lookup : Option SchemaLookup} {key : String} {value : Value}
  {entries inner : List (String × Value)}

/-- The entries demand the properties that their keys require. -/
theorem demands_iff {name : String} : Demands entries name ↔ Requires entries name := by
  have hkey (key : String) : slotOf key = some name ∧ ¬ IsOptional key ↔
      key ≠ wildcardText ∧ ¬ IsOptional key ∧ propertyOf key = name := by
    rw [slotOf, Option.ite_none_left_eq_some, Option.some.injEq, and_assoc,
      and_comm (a := _ = name)]
  simp only [Demands, Requires, propertyKeys, hkey, List.mem_filter, List.mem_map,
    decide_eq_true_iff]
  constructor
  · rintro ⟨e, he, hwildcard, hrequired⟩
    exact ⟨e.1, ⟨⟨e, he, rfl⟩, hwildcard⟩, hrequired⟩
  · rintro ⟨_, ⟨⟨e, he, rfl⟩, hwildcard⟩, hrequired⟩
    exact ⟨e, he, hwildcard, hrequired⟩

/-- The wildcard slot is filled by the wildcard. -/
theorem none_mem_slots_iff : none ∈ slots entries ↔ wildcardText ∈ entries.map Prod.fst := by
  simp only [slots, List.mem_map, slotOf]
  constructor
  · rintro ⟨e, he, hslot⟩
    split at hslot
    · next h => exact ⟨e, he, h⟩
    · cases hslot
  · rintro ⟨e, he, h⟩
    exact ⟨e, he, if_pos h⟩

/-! ### The fields of an object schema -/

/-- A description changes no other keyword. -/
theorem get?_describe {s : Schema} {description : Option String} {k : String}
    (h : k ≠ "description") : (s.describe description).get? k = s.get? k := by
  cases description with
  | none => rfl
  | some text => exact (get?_set s ..).trans (if_neg h)

section Fields

variable {d : Draft}

private theorem get?_core_additional : d.core.get? "additionalProperties" = none := by
  rw [Draft.core]
  split
  · rfl
  · rfl

private theorem get?_core_required : d.core.get? "required" =
    if d.required.isEmpty then none else some (.ofStrings d.required.keys) := by
  rw [Draft.core]
  split
  · rfl
  · rw [get?_set, if_pos rfl]

/-- The properties are listed. -/
theorem get?_schema_properties : d.schema.get? "properties" = some (.ofFields d.properties) :=
  get?_schema (by decide) (by decide)

/-- Required properties are listed if there are any. -/
theorem get?_schema_required : d.schema.get? "required" =
    if d.required.isEmpty then none else some (.ofStrings d.required.keys) := by
  rw [Draft.schema_eq, ← get?_core_required]
  split
  · rw [get?_set, if_neg (by decide)]
  · rfl

/-- There is a schema for additional properties if the draft has one. -/
theorem get?_schema_additional :
    d.schema.get? "additionalProperties" = d.additional.map Schema.toJson := by
  rw [Draft.schema_eq]
  split
  · next s hs =>
    rw [get?_set, if_pos rfl, hs]
    rfl
  · next hnone =>
    rw [get?_core_additional, hnone]
    rfl

/-- The schema of a draft has at each slot what the draft has there. -/
theorem slotSchema?_describe (slot : Option String) (description : Option String) :
    slotSchema? slot (d.schema.describe description).toJson = d.schemaAt slot := by
  cases slot with
  | none => exact (get?_describe (by decide)).trans get?_schema_additional
  | some name =>
    show ((d.schema.describe description).get? "properties").bind (Value.field? name) = _
    rw [get?_describe (by decide), get?_schema_properties]
    rfl

end Fields

/-! ### Adding entries -/

/-- The schema that an entry gives to its slot. -/
def entrySchema (lookup : Option SchemaLookup) (key : String) (value : Value) :
    Traced SchemaError Schema :=
  match Key.ofText key with
  | .wildcard => ofNode lookup value
  | .property _ optional parenthetical =>
    property key optional parenthetical value (ofNode lookup value)

/-- A draft with a schema for a key. -/
def Draft.write (d : Draft) (key : Key) (s : Schema) : Draft :=
  match key with
  | .wildcard => { d with additional := some s }
  | .property name optional _ =>
    { d with
      properties := d.properties.insert name s.toJson
      required := if optional then d.required else d.required.insert name () }

/-- Adding an entry writes its schema. -/
theorem add_eq (d : Draft) : d.add key value (ofNode lookup value) =
    d.write (Key.ofText key) <$> entrySchema lookup key value := by
  unfold Draft.add entrySchema
  cases Key.ofText key with
  | wildcard => rfl
  | property name optional parenthetical => rfl

/-- The schema that is written for a key stands at the key's slot. -/
theorem schemaAt_write (d : Draft) (key : String) (s : Schema) :
    (d.write (Key.ofText key) s).schemaAt (slotOf key) = some s.toJson := by
  cases hkey : Key.ofText key with
  | wildcard =>
    rw [slotOf, if_pos (ofText_eq_wildcard_iff.mp hkey)]
    rfl
  | property name optional parenthetical =>
    rw [(slotOf_of_property hkey).1]
    exact (OrderedMap.get?_insert ..).trans (if_pos rfl)

/-- Adding entries writes the schema of the first and adds the others. -/
theorem addAll_cons_eq_ok_iff {rest : List (String × Value)} {d d' : Draft} :
    (addAll lookup d ((key, value) :: rest)).result = .ok d' ↔
      ∃ s, (entrySchema lookup key value).result = .ok s ∧
        (addAll lookup (d.write (Key.ofText key) s) rest).result = .ok d' := by
  rw [addAll, add_eq, Traced.result_bind_eq_ok_iff]
  constructor
  · rintro ⟨next, hnext, h⟩
    obtain ⟨s, hs, rfl⟩ := Traced.result_map_eq_ok_iff.mp hnext
    exact ⟨s, hs, h⟩
  · rintro ⟨s, hs, h⟩
    exact ⟨_, Traced.result_map_eq_ok_iff.mpr ⟨s, hs, rfl⟩, h⟩

/-- The last entry about a slot gives the slot its schema. -/
theorem schemaAt_addAll {before after : List (String × Value)} {d d' : Draft}
    (h : (addAll lookup d (before ++ (key, value) :: after)).result = .ok d')
    (hlast : slotOf key ∉ slots after) :
    ∃ s, (entrySchema lookup key value).result = .ok s ∧
      d'.schemaAt (slotOf key) = some s.toJson := by
  induction before generalizing d with
  | nil =>
    obtain ⟨s, hs, h⟩ := addAll_cons_eq_ok_iff.mp h
    have hkept := (added_addAll (t := .json) after h).schemaAt_of_notMem _ hlast
    exact ⟨s, hs, hkept.trans (schemaAt_write ..)⟩
  | cons e before ih =>
    obtain ⟨s, -, h⟩ := addAll_cons_eq_ok_iff.mp h
    exact ih h

/-- Every entry of a mapping that compiles has a schema. -/
theorem exists_entrySchema_of_mem {d d' : Draft} (h : (addAll lookup d entries).result = .ok d')
    (hmem : (key, value) ∈ entries) : ∃ s, (entrySchema lookup key value).result = .ok s := by
  induction entries generalizing d with
  | nil => cases hmem
  | cons e rest ih =>
    obtain ⟨key', value'⟩ := e
    obtain ⟨s, hs, h⟩ := addAll_cons_eq_ok_iff.mp h
    rcases List.mem_cons.mp hmem with heq | hmem
    · cases heq
      exact ⟨s, hs⟩
    · exact ih h hmem

private theorem eraseDups_concat (names : List String) (name : String) :
    (names ++ [name]).eraseDups =
      if name ∈ names.eraseDups then names.eraseDups else names.eraseDups ++ [name] := by
  rw [List.eraseDups_append]
  split
  · next h =>
    rw [List.mem_eraseDups] at h
    simp [List.removeAll, h]
  · next h =>
    rw [List.mem_eraseDups] at h
    simp [List.removeAll, List.eraseDups_cons, h]

/-- The properties of a draft are those that it had and those that the entries name, in the order in
which they first come. -/
theorem keys_addAll {names : List String} {d d' : Draft} (hd : d.properties.keys = names.eraseDups)
    (h : (addAll lookup d entries).result = .ok d') :
    d'.properties.keys = (names ++ namedProperties entries).eraseDups := by
  induction entries generalizing d names with
  | nil =>
    rw [addAll] at h
    cases h
    simpa [namedProperties, propertyKeys] using hd
  | cons e rest ih =>
    obtain ⟨key, value⟩ := e
    obtain ⟨s, -, h⟩ := addAll_cons_eq_ok_iff.mp h
    by_cases hwildcard : key = wildcardText
    · subst hwildcard
      rw [ofText_wildcardText] at h
      have hnames : namedProperties ((wildcardText, value) :: rest) = namedProperties rest := by
        simp [namedProperties, propertyKeys]
      rw [hnames]
      refine ih ?_ h
      exact hd
    · obtain ⟨parenthetical, hkey⟩ := ofText_eq_property hwildcard
      rw [hkey] at h
      have hnames : namedProperties ((key, value) :: rest) =
          [propertyOf key] ++ namedProperties rest := by
        simp [namedProperties, propertyKeys, hwildcard]
      rw [hnames, ← List.append_assoc]
      refine ih ?_ h
      rw [eraseDups_concat, ← hd]
      exact OrderedMap.keys_insert ..

/-! ### Mappings -/

section Finished

variable {d : Draft} (h : (addAll lookup {} entries).result = .ok d)

include h

/-- A property is required in the draft of a mapping as the keys say. -/
theorem mem_required_iff {name : String} : name ∈ d.required.keys ↔ Requires entries name := by
  rw [(added_addAll (t := .json) entries h).mem_required_iff, demands_iff]
  exact or_iff_right List.not_mem_nil

/-- Some property is required in the draft of a mapping if some key says so. -/
theorem isEmpty_required_eq_false_iff :
    d.required.isEmpty = false ↔ ∃ key ∈ propertyKeys entries, ¬ IsOptional key := by
  have hkeys : d.required.isEmpty = d.required.keys.isEmpty := List.isEmpty_map.symm
  rw [hkeys, List.isEmpty_eq_false_iff_exists_mem]
  simp only [mem_required_iff h, Requires]
  constructor
  · rintro ⟨name, key, hmem, hpresent, -⟩
    exact ⟨key, hmem, hpresent⟩
  · rintro ⟨key, hmem, hpresent⟩
    exact ⟨_, key, hmem, hpresent, rfl⟩

/-- The draft of a mapping has a schema for additional properties if the wildcard is a key. -/
theorem isSome_additional_iff :
    d.additional.isSome = true ↔ wildcardText ∈ entries.map Prod.fst := by
  have hadded := added_addAll (t := .json) entries h
  have hslot : d.additional.isSome = (d.schemaAt none).isSome := Option.isSome_map.symm
  rw [← none_mem_slots_iff, hslot]
  constructor
  · intro hsome
    refine Decidable.byContradiction fun hmem ↦ ?_
    rw [hadded.schemaAt_of_notMem none hmem] at hsome
    cases hsome
  · intro hmem
    obtain ⟨s, hs, -⟩ := hadded.schemaAt_of_mem none hmem
    rw [hs, Option.isSome_some]

/-- The draft of a mapping gives the mapping's object schema, with or without a description. -/
theorem isObjectSchemaOf_describe (description : Option String) :
    IsObjectSchemaOf entries (d.schema.describe description).toJson := by
  have hfield {k : String} (hk : k ≠ "description") :
      (d.schema.describe description).toJson.field? k = d.schema.get? k := get?_describe hk
  have hkeys : d.properties.keys = ([] ++ namedProperties entries).eraseDups := keys_addAll rfl h
  constructor
  · rw [hfield (by decide), get?_schema (by decide) (by decide)]
    rfl
  · rw [hfield (by decide), get?_schema_properties]
    exact ⟨d.properties.entries, rfl, hkeys⟩
  · rw [hfield (by decide), get?_schema_required, ← isEmpty_required_eq_false_iff h]
    cases d.required.isEmpty <;> simp
  · intro v hv
    rw [hfield (by decide), get?_schema_required] at hv
    split at hv
    · cases hv
    · cases hv
      have hascending := d.required.pairwise_keys
      refine ⟨d.required.keys, rfl, hascending, ?_, ?_, fun _ ↦ mem_required_iff h⟩
      · exact hascending.imp String.ne_of_lt
      · intro name hname
        obtain ⟨key, hmem, -, rfl⟩ := (mem_required_iff h).mp hname
        exact List.mem_map_of_mem hmem
  · rw [hfield (by decide), get?_schema_additional, Option.isSome_map, isSome_additional_iff h]

end Finished

/-! ### Nested mappings, compiled -/

/-- A schema with `null` beside it is the first of two. -/
theorem head?_anyOf_nullable (s : Schema) (description : Option String) :
    ((((nullable s).describe description).toJson.field? "anyOf").bind Value.items?).bind
      List.head? = some s.toJson := by
  have hanyOf : ((nullable s).describe description).get? "anyOf" =
      some (.array [s.toJson, (Schema.ofType "null").toJson]) := by
    rw [nullable, get?_describe (by decide), get?_describe (by decide), get?_set, if_pos rfl]
  show ((Schema.get? _ "anyOf").bind _).bind _ = _
  rw [hanyOf]
  rfl

/-- A list holds the schema of its items. -/
theorem get?_items_arrayOf {optional : Bool} {s : Schema} :
    (arrayOf optional s).get? "items" = some s.toJson := by
  rw [arrayOf]
  split
  · rw [get?_set, if_neg (by decide), get?_set, if_pos rfl]
  · rw [get?_set, if_pos rfl]

/-- A mapping is compiled to a schema with a type. -/
theorem hasType_of_object {o : Schema} (h : (ofNode lookup (.object inner)).result = .ok o) :
    o.hasType = true :=
  (hasType_ofNode h).mpr trivial

/-- A schema holds, where a key puts it, what a mapping compiles to, with or without a
description. -/
def Wraps (lookup : Option SchemaLookup) (inner : List (String × Value)) (key : String)
    (s : Schema) : Prop :=
  ∃ o description, (ofNode lookup (.object inner)).result = .ok o ∧
    unwrapped? key s.toJson = some (o.describe description).toJson

section Property

variable {name : String} {optional : Bool} {s : Schema}

/-- A key without annotation wraps a mapping at most in a choice with `null`. -/
theorem wraps_plain (hkey : Key.ofText key = .property name optional none)
    (h : (property key optional none (.object inner) (ofNode lookup (.object inner))).result =
      .ok s) :
    Wraps lookup inner key s := by
  have hnote : ¬ Noted key "array" := by
    rw [noted_iff_note?, hkey]
    exact nofun
  have hoptional := (slotOf_of_property hkey).2
  obtain ⟨o, ho, h⟩ := Traced.result_bind_eq_ok_iff.mp h
  cases h
  refine ⟨o, none, ho, ?_⟩
  rw [hasType_of_object ho, Bool.and_true, unwrapped?, if_neg hnote]
  simp only [hoptional]
  cases optional with
  | false => rfl
  | true => exact head?_anyOf_nullable o none

/-- A key with an annotation wraps a mapping as the items of a list or in a choice with `null`, and
describes it. -/
theorem wraps_annotated {note : Described}
    (hkey : Key.ofText key = .property name optional (some note))
    (h : (property key optional (some note) (.object inner)
      (ofNode lookup (.object inner))).result = .ok s) :
    Wraps lookup inner key s := by
  have hnote : Noted key "array" ↔ note.name = "array" := by
    rw [noted_iff_note?, hkey]
    exact Option.some_inj
  have hoptional := (slotOf_of_property hkey).2
  unfold property at h
  dsimp only at h
  split at h
  · next harray =>
    obtain ⟨list, hlist, h⟩ := Traced.result_bind_eq_ok_iff.mp h
    obtain ⟨o, ho, rfl⟩ := Traced.result_map_eq_ok_iff.mp hlist
    cases h
    refine ⟨o, none, ho, ?_⟩
    rw [unwrapped?, if_pos (hnote.mpr harray)]
    exact (get?_describe (by decide)).trans get?_items_arrayOf
  · next harray =>
    split at h
    · obtain ⟨s', hs', h⟩ := Traced.result_bind_eq_ok_iff.mp h
      obtain ⟨o, ho, rfl⟩ := Traced.result_map_eq_ok_iff.mp hs'
      cases h
      cases optional with
      | false =>
        refine ⟨o, note.description, ho, ?_⟩
        rw [unwrapped?, if_neg (mt hnote.mp harray), if_neg (by simp [hoptional])]
        rfl
      | true =>
        refine ⟨o, none, ho, ?_⟩
        rw [unwrapped?, if_neg (mt hnote.mp harray), if_pos (hoptional.mpr rfl)]
        exact head?_anyOf_nullable o note.description
    · -- No other annotation allows a mapping.
      split at h
      · cases h
      · cases h

end Property

/-- The schema that an entry gives to its slot wraps the mapping that is its value. -/
theorem wraps_entrySchema {s : Schema}
    (h : (entrySchema lookup key (.object inner)).result = .ok s) :
    Wraps lookup inner key s := by
  unfold entrySchema at h
  cases hkey : Key.ofText key with
  | wildcard =>
    rw [hkey] at h
    refine ⟨s, none, h, ?_⟩
    rw [ofText_eq_wildcard_iff.mp hkey]
    rfl
  | property name optional parenthetical =>
    rw [hkey] at h
    cases parenthetical with
    | none => exact wraps_plain hkey h
    | some note => exact wraps_annotated hkey h

/-- A mapping that compiles gives its object schema, with or without a description. -/
theorem isObjectSchemaOf_of_ofNode {o : Schema}
    (h : (ofNode lookup (.object entries)).result = .ok o) (description : Option String) :
    IsObjectSchemaOf entries (o.describe description).toJson := by
  rw [ofNode] at h
  obtain ⟨d, hd, rfl⟩ := Traced.result_map_eq_ok_iff.mp h
  exact isObjectSchemaOf_describe hd description

/-- In a mapping that compiles, every nested one does. -/
theorem Nested.ofNode_eq_ok (h : Nested entries inner) :
    ∀ {o : Schema}, (ofNode lookup (.object entries)).result = .ok o →
      ∃ o', (ofNode lookup (.object inner)).result = .ok o' := by
  induction h with
  | self =>
    intro o ho
    exact ⟨o, ho⟩
  | under hmem _ ih =>
    intro o ho
    rw [ofNode] at ho
    obtain ⟨d, hd, -⟩ := Traced.result_map_eq_ok_iff.mp ho
    obtain ⟨s, hs⟩ := exists_entrySchema_of_mem hd hmem
    obtain ⟨o', -, ho', -⟩ := wraps_entrySchema hs
    exact ih ho'

/-- At the place that the keys lead to stands what the nested mapping compiles to, with or without a
description. -/
theorem LeadsTo.schemaAlong?_eq {path : List String} (h : LeadsTo entries path inner) :
    ∀ {o : Schema}, (ofNode lookup (.object entries)).result = .ok o →
      ∀ description, ∃ o' description', (ofNode lookup (.object inner)).result = .ok o' ∧
        schemaAlong? path (o.describe description).toJson =
          some (o'.describe description').toJson := by
  induction h with
  | self =>
    intro o ho description
    exact ⟨o, description, ho, rfl⟩
  | under hlast _ ih =>
    intro o ho description
    rw [ofNode] at ho
    obtain ⟨d, hd, rfl⟩ := Traced.result_map_eq_ok_iff.mp ho
    obtain ⟨s, hs, hslot⟩ := schemaAt_addAll hd hlast
    obtain ⟨o', description', ho', hinner⟩ := wraps_entrySchema hs
    obtain ⟨innermost, description'', hinnermost, hplace⟩ := ih ho' description'
    refine ⟨innermost, description'', hinnermost, ?_⟩
    rw [schemaAlong?, slotSchema?_describe, hslot, Option.bind_some, hinner, Option.bind_some,
      hplace]

/-- Every mapping in a mapping that compiles has its object schema. For a mapping that no later key
replaces it stands at the place that the keys lead to. -/
theorem compile_objectSchemas (lookup : Option SchemaLookup) {entries : List (String × Value)}
    (hentries : finished? entries = none) {s : Schema}
    (h : (compile lookup (.object entries)).result = .ok (some s)) :
    (∀ inner, Nested entries inner → ∃ o, (ofNode lookup (.object inner)).result = .ok o ∧
      IsObjectSchemaOf inner o.toJson) ∧
    ∀ path inner, LeadsTo entries path inner → ∃ schema,
      schemaAlong? path s.toJson = some schema ∧ IsObjectSchemaOf inner schema := by
  rw [compile, hentries] at h
  obtain ⟨s', hs, heq⟩ := Traced.result_map_eq_ok_iff.mp h
  cases heq
  constructor
  · intro inner hinner
    obtain ⟨o, ho⟩ := hinner.ofNode_eq_ok hs
    exact ⟨o, ho, isObjectSchemaOf_of_ofNode ho none⟩
  · intro path inner hpath
    obtain ⟨o, description, ho, hplace⟩ := hpath.schemaAlong?_eq hs none
    exact ⟨_, hplace, isObjectSchemaOf_of_ofNode ho description⟩

/-- Several keys about one property, with mappings nested in all the ways there are. -/
def household : List (String × Value) :=
  [("owner", .object [("name", .string "string")]),
    ("owner?", .object [("id", .string "integer"), ("id?", .string "string")]),
    ("pets(array, all of them)", .object [("kind", .string "string"), ("age?", .string "integer")]),
    ("home?(object, where they live)", .object [("street?", .string "string")]),
    ("(*)", .object [("(*)", .string "any")])]

/-- The mapping compiles, and the mappings in it have their object schemas. -/
theorem compile_household :
    finished? household = none ∧ ∃ s, (compile none (.object household)).result = .ok (some s) ∧
      (∀ inner, Nested household inner → ∃ o, (ofNode none (.object inner)).result = .ok o ∧
        IsObjectSchemaOf inner o.toJson) ∧
      ∀ path inner, LeadsTo household path inner → ∃ schema,
        schemaAlong? path s.toJson = some schema ∧ IsObjectSchemaOf inner schema := by
  have hentries : finished? household = none := by decide
  have hrun : (compile none (.object household)).result.toOption.join.isSome = true := by
    decide +kernel
  obtain ⟨s, hs⟩ := Option.isSome_iff_exists.mp hrun
  have hok := Traced.result_eq_ok_of_toOption (Option.join_eq_some_iff.mp hs)
  exact ⟨hentries, s, hok, compile_objectSchemas none hentries hok⟩

end PromptDoc.Shorthand
