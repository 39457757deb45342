import PromptDoc.Proofs.Json.Fields
import PromptDoc.Prompt
import PromptDoc.Store.Basic

/-!
# The data model reads back

Each type of the data model is read back from its written form, one lemma a type, assembled from the
fields by the lemmas of `PromptDoc.Proofs.Json.Fields`. A field that holds any value is the one
exception: written as `null` it reads as absent, so `NullFree` keeps such values out, and nothing
that was read holds one. Main statement: all types of the data model round-trip
(`roundTrips_dataModel`).
-/

namespace PromptDoc

open Json

/-! ## Messages -/

/-- A medium is read from a record with a `url` and perhaps a `contentType`. -/
theorem Media.ofJson?_eq_some_iff {v : Value} {m : Media} :
    Media.ofJson? v = some m ↔ ∃ fields, record? ["url", "contentType"] v = some fields ∧
      required? Value.string? "url" fields = some m.url ∧
      optional? Value.string? "contentType" fields = some m.contentType := by
  cases m
  simp only [Media.ofJson?, Option.bind_eq_bind, Option.bind_eq_some_iff]
  grind

/-- Every medium is read back. -/
theorem Media.ofJson?_toJson (m : Media) : Media.ofJson? m.toJson = some m := by
  refine Media.ofJson?_eq_some_iff.mpr ⟨_, rfl, ?_, ?_⟩
  · exact required?_string (by simp)
  · exact optional?_string (by simp)

namespace Part

variable {α : Type} {read : Value → Option α} {k l : String} {make : α → Option Annotations → Part}
  {v : Value} {m : Option Annotations}

/-- A payload under its own key is read with the metadata beside it. -/
theorem payload?_own (hk : k ≠ "metadata") :
    payload? read k make (entry k v ++ toJson.metadataEntry m) = (read v).map (make · m) := by
  have hv : required? read k (entry k v ++ toJson.metadataEntry m) = read v := by
    simp [required?]
  have hm : optional? Value.fields? "metadata" (entry k v ++ toJson.metadataEntry m) = some m :=
    optional?_fields (by simp [toJson.metadataEntry, hk])
  rw [payload?, hv, hm]
  cases read v <;> rfl

/-- A payload is not found under another key. -/
theorem payload?_other (hl : l ≠ k) (hk : "metadata" ≠ k) (hnull : read .null = none) :
    payload? read k make (entry l v ++ toJson.metadataEntry m) = none := by
  have hnone : required? read k (entry l v ++ toJson.metadataEntry m) = none :=
    required?_of_find?_none (by simp [toJson.metadataEntry, hl, hk]) hnull
  rw [payload?, hnone]
  rfl

/-- A part reads back as the part that it is, whatever its metadata. -/
theorem ofJson?_toJson (p : Part) : ofJson? p.toJson = some p := by
  have hstring : Value.string? .null = none := rfl
  have hfields : Value.fields? .null = none := rfl
  have hmedia : Media.ofJson? .null = none := rfl
  cases p with
  | text t m => simp [ofJson?, toJson, entries?, payload?_own, Value.string?]
  | media x m =>
    simp [ofJson?, toJson, entries?, payload?_other, payload?_own, hstring, Media.ofJson?_toJson]
  | toolRequest x m =>
    simp [ofJson?, toJson, entries?, payload?_other, payload?_own, hstring, hmedia]
  | toolResponse x m =>
    simp [ofJson?, toJson, entries?, payload?_other, payload?_own, hstring, hmedia, hfields]
  | data x m =>
    simp [ofJson?, toJson, entries?, payload?_other, payload?_own, hstring, hmedia, hfields]
  | pending m =>
    simp [ofJson?, toJson, entries?, payload?, required?, entry, OrderedMap.find?, hstring, hmedia,
      hfields]

end Part

/-- A message is read from a record with a `role`, the parts of its `content`, and perhaps
`metadata`. -/
theorem Message.ofJson?_eq_some_iff {v : Value} {m : Message} :
    Message.ofJson? v = some m ↔ ∃ fields, record? ["role", "content", "metadata"] v = some fields ∧
      required? Role.ofJson? "role" fields = some m.role ∧
      required? (list? Part.ofJson?) "content" fields = some m.content ∧
      optional? Value.fields? "metadata" fields = some m.metadata := by
  cases m
  simp only [Message.ofJson?, Option.bind_eq_bind, Option.bind_eq_some_iff]
  grind

/-- Every message is read back. -/
theorem Message.ofJson?_toJson (m : Message) : Message.ofJson? m.toJson = some m := by
  refine Message.ofJson?_eq_some_iff.mpr ⟨_, rfl, ?_, ?_, ?_⟩
  · exact required?_of_find? (by simp) (Role.ofJson?_toJson m.role)
  · exact required?_of_find? (by simp) (list?_map fun p _ ↦ p.ofJson?_toJson)
  · exact optional?_fields (by simp)

/-- A document is read from a record with the parts of its `content` and perhaps `metadata`. -/
theorem Document.ofJson?_eq_some_iff {v : Value} {d : Document} :
    Document.ofJson? v = some d ↔ ∃ fields, record? ["content", "metadata"] v = some fields ∧
      required? (list? Part.ofJson?) "content" fields = some d.content ∧
      optional? Value.fields? "metadata" fields = some d.metadata := by
  cases d
  simp only [Document.ofJson?, Option.bind_eq_bind, Option.bind_eq_some_iff]
  grind

/-- Every document is read back. -/
theorem Document.ofJson?_toJson (d : Document) : Document.ofJson? d.toJson = some d := by
  refine Document.ofJson?_eq_some_iff.mpr ⟨_, rfl, ?_, ?_⟩
  · exact required?_of_find? (by simp) (list?_map fun p _ ↦ p.ofJson?_toJson)
  · exact optional?_fields (by simp)

/-- Render data are read from a record in which every field has an empty default. -/
theorem RenderData.ofJson?_eq_some_iff {v : Value} {d : RenderData} :
    RenderData.ofJson? v = some d ↔
      ∃ fields, record? ["input", "docs", "messages", "context"] v = some fields ∧
        defaulted? Value.fields? ∅ "input" fields = some d.input ∧
        defaulted? (list? Document.ofJson?) [] "docs" fields = some d.docs ∧
        defaulted? (list? Message.ofJson?) [] "messages" fields = some d.messages ∧
        defaulted? Value.fields? ∅ "context" fields = some d.context := by
  cases d
  simp only [RenderData.ofJson?, Option.bind_eq_bind, Option.bind_eq_some_iff]
  grind

/-- All render data are read back. -/
theorem RenderData.ofJson?_toJson (d : RenderData) : RenderData.ofJson? d.toJson = some d := by
  refine RenderData.ofJson?_eq_some_iff.mpr ⟨_, rfl, ?_, ?_, ?_, ?_⟩
  · exact defaulted?_fields (by simp)
  · exact defaulted?_list Document.toJson (by simp) fun x _ ↦ x.ofJson?_toJson
  · exact defaulted?_list Message.toJson (by simp) fun x _ ↦ x.ofJson?_toJson
  · exact defaulted?_fields (by simp)

/-! ## Metadata -/

/-- No schema of the definition is `null`. -/
structure ToolDefinition.NullFree (t : ToolDefinition) : Prop where
  input : t.inputSchema ≠ some .null
  output : t.outputSchema ≠ some .null

/-- The schema is not `null`. -/
def PromptInput.NullFree (i : PromptInput) : Prop := i.schema ≠ some .null

/-- The schema is not `null`. -/
def PromptOutput.NullFree (o : PromptOutput) : Prop := o.schema ≠ some .null

/-- No schema of the metadata is `null`. -/
structure PromptMetadata.NullFree (m : PromptMetadata) : Prop where
  toolDefs : ∀ t ∈ m.toolDefs, t.NullFree
  input : ∀ i, m.input = some i → i.NullFree
  output : ∀ o, m.output = some o → o.NullFree

/-- A tool definition is read from a record with a `name` and perhaps a description and two schemas,
which may be any values. -/
theorem ToolDefinition.ofJson?_eq_some_iff {v : Value} {t : ToolDefinition} :
    ToolDefinition.ofJson? v = some t ↔ ∃ fields,
      record? ["name", "description", "inputSchema", "outputSchema"] v = some fields ∧
        required? Value.string? "name" fields = some t.name ∧
        optional? Value.string? "description" fields = some t.description ∧
        optional? some "inputSchema" fields = some t.inputSchema ∧
        optional? some "outputSchema" fields = some t.outputSchema := by
  cases t
  simp only [ToolDefinition.ofJson?, Option.bind_eq_bind, Option.bind_eq_some_iff]
  grind

/-- A tool definition is read back if no schema of it is `null`. -/
theorem ToolDefinition.ofJson?_toJson {t : ToolDefinition} (h : t.NullFree) :
    ToolDefinition.ofJson? t.toJson = some t := by
  refine ToolDefinition.ofJson?_eq_some_iff.mpr ⟨_, rfl, ?_, ?_, ?_, ?_⟩
  · exact required?_string (by simp)
  · exact optional?_string (by simp)
  · exact optional?_value (by simp) h.input
  · exact optional?_value (by simp) h.output

/-- No schema of a tool definition is read as `null`. -/
theorem ToolDefinition.nullFree_of_ofJson? {v : Value} {t : ToolDefinition}
    (h : ToolDefinition.ofJson? v = some t) : t.NullFree := by
  obtain ⟨fields, -, -, -, hinput, houtput⟩ := ToolDefinition.ofJson?_eq_some_iff.mp h
  exact ⟨ne_null_of_optional? hinput, ne_null_of_optional? houtput⟩

-- A schema of `null` would be lost.
example : ToolDefinition.ofJson? (ToolDefinition.toJson ⟨"t", none, some .null, none⟩) =
    some ⟨"t", none, none, none⟩ := by decide

/-- The input is read from a record with default values and perhaps a schema, which may be any
value. -/
theorem PromptInput.ofJson?_eq_some_iff {v : Value} {i : PromptInput} :
    PromptInput.ofJson? v = some i ↔ ∃ fields, record? ["default", "schema"] v = some fields ∧
      defaulted? Value.fields? ∅ "default" fields = some i.default ∧
      optional? some "schema" fields = some i.schema := by
  cases i
  simp only [PromptInput.ofJson?, Option.bind_eq_bind, Option.bind_eq_some_iff]
  grind

/-- An input is read back if its schema is not `null`. -/
theorem PromptInput.ofJson?_toJson {i : PromptInput} (h : i.NullFree) :
    PromptInput.ofJson? i.toJson = some i := by
  refine PromptInput.ofJson?_eq_some_iff.mpr ⟨_, rfl, ?_, ?_⟩
  · exact defaulted?_fields (by simp)
  · exact optional?_value (by simp) h

/-- The schema of an input is not read as `null`. -/
theorem PromptInput.nullFree_of_ofJson? {v : Value} {i : PromptInput}
    (h : PromptInput.ofJson? v = some i) : i.NullFree := by
  obtain ⟨fields, -, -, hschema⟩ := PromptInput.ofJson?_eq_some_iff.mp h
  exact ne_null_of_optional? hschema

/-- The output is read from a record with perhaps a format and a schema, which may be any value. -/
theorem PromptOutput.ofJson?_eq_some_iff {v : Value} {o : PromptOutput} :
    PromptOutput.ofJson? v = some o ↔ ∃ fields, record? ["format", "schema"] v = some fields ∧
      optional? Value.string? "format" fields = some o.format ∧
      optional? some "schema" fields = some o.schema := by
  cases o
  simp only [PromptOutput.ofJson?, Option.bind_eq_bind, Option.bind_eq_some_iff]
  grind

/-- An output is read back if its schema is not `null`. -/
theorem PromptOutput.ofJson?_toJson {o : PromptOutput} (h : o.NullFree) :
    PromptOutput.ofJson? o.toJson = some o := by
  refine PromptOutput.ofJson?_eq_some_iff.mpr ⟨_, rfl, ?_, ?_⟩
  · exact optional?_string (by simp)
  · exact optional?_value (by simp) h

/-- The schema of an output is not read as `null`. -/
theorem PromptOutput.nullFree_of_ofJson? {v : Value} {o : PromptOutput}
    (h : PromptOutput.ofJson? v = some o) : o.NullFree := by
  obtain ⟨fields, -, -, hschema⟩ := PromptOutput.ofJson?_eq_some_iff.mp h
  exact ne_null_of_optional? hschema

/-- The numbers of turns are the natural numbers of at most 32 bits. -/
theorem turns?_eq_some_iff {v : Value} {n : UInt32} : turns? v = some n ↔ v = .ofNat n.toNat := by
  rw [turns?, Option.map_eq_some_iff]
  constructor
  · rintro ⟨m, hm, rfl⟩
    obtain ⟨rfl, hbound⟩ := natBelow?_eq_some_iff.mp hm
    rw [UInt32.toNat_ofNat_of_lt' hbound]
  · rintro rfl
    exact ⟨n.toNat, natBelow?_ofNat n.toNat_lt, UInt32.ofNat_toNat⟩

/-- A number of turns reads back, since it has at most 32 bits. -/
theorem turns?_ofNat (n : UInt32) : turns? (.ofNat n.toNat) = some n := turns?_eq_some_iff.mpr rfl

/-- Extensions read back, their namespaces in order and the fields of each in order. -/
theorem ext?_extToJson (ext : SortedMap String Fields) : ext? (extToJson ext) = some ext := by
  have hkeys : (ext.entries.map fun e ↦ (e.1, Value.ofFields e.2)).map Prod.fst = ext.keys := by
    rw [List.map_map]
    rfl
  have hnodup : ext.keys.Nodup := ext.ascending_keys.imp fun hlt heq ↦ by
    rw [heq, Std.compare_self] at hlt
    cases hlt
  have hfields : (extToJson ext).fields? =
      some ⟨ext.entries.map fun e ↦ (e.1, .ofFields e.2), by rw [hkeys]; exact hnodup⟩ :=
    Value.fields?_ofFields ⟨_, _⟩
  have hspaces : (ext.entries.map fun e ↦ (e.1, Value.ofFields e.2)).mapM
      (fun e ↦ (Value.fields? e.2).map fun m ↦ (e.1, m)) = some ext.entries :=
    mapM_map_eq_some fun e _ ↦ by rw [Value.fields?_ofFields, Option.map_some]
  simp only [ext?, hfields, Option.bind_eq_bind, Option.bind_some, hspaces,
    SortedMap.ofList_entries]

namespace PromptMetadata

/-- Metadata is read field by field. -/
theorem ofEntries?_eq_some_iff {fields : List (String × Value)} {m : PromptMetadata} :
    ofEntries? fields = some m ↔
      optional? Value.string? "name" fields = some m.name ∧
      optional? Value.string? "variant" fields = some m.variant ∧
      optional? Value.string? "version" fields = some m.version ∧
      optional? Value.string? "description" fields = some m.description ∧
      optional? Value.string? "model" fields = some m.model ∧
      optional? turns? "maxTurns" fields = some m.maxTurns ∧
      defaulted? (list? Value.string?) [] "tools" fields = some m.tools ∧
      defaulted? (list? ToolDefinition.ofJson?) [] "toolDefs" fields = some m.toolDefs ∧
      defaulted? Value.fields? ∅ "config" fields = some m.config ∧
      optional? PromptInput.ofJson? "input" fields = some m.input ∧
      optional? PromptOutput.ofJson? "output" fields = some m.output ∧
      optional? Value.fields? "raw" fields = some m.raw ∧
      defaulted? ext? ∅ "ext" fields = some m.ext ∧
      optional? Value.fields? "metadata" fields = some m.metadata := by
  constructor
  · intro h
    obtain ⟨name, hname, h⟩ := Option.bind_eq_some_iff.mp h
    obtain ⟨variant, hvariant, h⟩ := Option.bind_eq_some_iff.mp h
    obtain ⟨version, hversion, h⟩ := Option.bind_eq_some_iff.mp h
    obtain ⟨description, hdescription, h⟩ := Option.bind_eq_some_iff.mp h
    obtain ⟨model, hmodel, h⟩ := Option.bind_eq_some_iff.mp h
    obtain ⟨maxTurns, hmaxTurns, h⟩ := Option.bind_eq_some_iff.mp h
    obtain ⟨tools, htools, h⟩ := Option.bind_eq_some_iff.mp h
    obtain ⟨toolDefs, htoolDefs, h⟩ := Option.bind_eq_some_iff.mp h
    obtain ⟨config, hconfig, h⟩ := Option.bind_eq_some_iff.mp h
    obtain ⟨input, hinput, h⟩ := Option.bind_eq_some_iff.mp h
    obtain ⟨output, houtput, h⟩ := Option.bind_eq_some_iff.mp h
    obtain ⟨raw, hraw, h⟩ := Option.bind_eq_some_iff.mp h
    obtain ⟨ext, hext, h⟩ := Option.bind_eq_some_iff.mp h
    obtain ⟨metadata, hmetadata, h⟩ := Option.bind_eq_some_iff.mp h
    cases h
    exact ⟨hname, hvariant, hversion, hdescription, hmodel, hmaxTurns, htools, htoolDefs, hconfig,
      hinput, houtput, hraw, hext, hmetadata⟩
  · rintro ⟨hname, hvariant, hversion, hdescription, hmodel, hmaxTurns, htools, htoolDefs, hconfig,
      hinput, houtput, hraw, hext, hmetadata⟩
    simp only [ofEntries?, hname, hvariant, hversion, hdescription, hmodel, hmaxTurns, htools,
      htoolDefs, hconfig, hinput, houtput, hraw, hext, hmetadata, Option.bind_eq_bind,
      Option.bind_some]

/-- Entries under other keys do not matter to metadata. -/
theorem ofEntries?_append {as rest : List (String × Value)}
    (h : ∀ k ∈ names, OrderedMap.find? k rest = none) :
    ofEntries? (as ++ rest) = ofEntries? as := by
  simp only [names, List.forall_mem_cons] at h
  simp only [ofEntries?, optional?_append, defaulted?_append, h]

/-- Metadata reads back from its entries. -/
theorem ofEntries?_toEntries {m : PromptMetadata} (h : m.NullFree) :
    ofEntries? m.toEntries = some m := by
  refine ofEntries?_eq_some_iff.mpr ⟨?_, ?_, ?_, ?_, ?_, ?_, ?_, ?_, ?_, ?_, ?_, ?_, ?_, ?_⟩
  · exact optional?_string (by simp [toEntries])
  · exact optional?_string (by simp [toEntries])
  · exact optional?_string (by simp [toEntries])
  · exact optional?_string (by simp [toEntries])
  · exact optional?_string (by simp [toEntries])
  · apply optional?_of_find? fun n : UInt32 ↦ Value.ofNat n.toNat
    · simp [toEntries]
    · intro n _
      exact ⟨turns?_ofNat n, Value.noConfusion⟩
  · exact defaulted?_list .string (by simp [toEntries, Value.ofStrings]) fun _ _ ↦ rfl
  · exact defaulted?_list ToolDefinition.toJson (by simp [toEntries])
      fun t ht ↦ ToolDefinition.ofJson?_toJson (h.toolDefs t ht)
  · exact defaulted?_fields (by simp [toEntries])
  · exact optional?_of_find? PromptInput.toJson (by simp [toEntries])
      fun i hi ↦ ⟨PromptInput.ofJson?_toJson (h.input i hi), Value.noConfusion⟩
  · exact optional?_of_find? PromptOutput.toJson (by simp [toEntries])
      fun o ho ↦ ⟨PromptOutput.ofJson?_toJson (h.output o ho), Value.noConfusion⟩
  · exact optional?_fields (by simp [toEntries])
  · have hext : OrderedMap.find? "ext" m.toEntries =
        if m.ext.isEmpty then none else some (extToJson m.ext) := by simp [toEntries]
    exact defaulted?_of_find? hext (fun hempty ↦ SortedMap.ext (List.isEmpty_iff.mp hempty))
      (ext?_extToJson m.ext)
  · exact optional?_fields (by simp [toEntries])

/-- The entries of metadata stand under the names of its fields. -/
theorem find?_toEntries_of_notMem {m : PromptMetadata} {k : String} (hk : k ∉ names) :
    OrderedMap.find? k m.toEntries = none := by
  simp only [names, List.mem_cons, List.not_mem_nil, or_false, not_or, eq_comm (a := k)] at hk
  simp [toEntries, hk]

/-- No schema in metadata is read as `null`. -/
theorem nullFree_of_ofEntries? {fields : List (String × Value)} {m : PromptMetadata}
    (h : ofEntries? fields = some m) : m.NullFree := by
  obtain ⟨-, -, -, -, -, -, -, htools, -, hinput, houtput, -⟩ := ofEntries?_eq_some_iff.mp h
  constructor
  · intro t ht
    rcases of_defaulted? htools with hnil | ⟨v, hv⟩
    · simp [hnil] at ht
    · obtain ⟨w, hw⟩ := exists_of_mem_list? hv t ht
      exact ToolDefinition.nullFree_of_ofJson? hw
  · intro i hi
    obtain ⟨v, -, hv⟩ := exists_of_optional? (hi ▸ hinput)
    exact PromptInput.nullFree_of_ofJson? hv
  · intro o ho
    obtain ⟨v, -, hv⟩ := exists_of_optional? (ho ▸ houtput)
    exact PromptOutput.nullFree_of_ofJson? hv

/-- Metadata are read back if no schema in them is `null`. -/
theorem ofJson?_toJson {m : PromptMetadata} (h : m.NullFree) : ofJson? m.toJson = some m := by
  rw [ofJson?, toJson, record?, Option.bind_some, ofEntries?_toEntries h]

/-- Metadata that were read are free of `null` schemas. -/
theorem nullFree_of_ofJson? {v : Value} {m : PromptMetadata} (h : ofJson? v = some m) :
    m.NullFree := by
  obtain ⟨fields, -, hfields⟩ := Option.bind_eq_some_iff.mp h
  exact nullFree_of_ofEntries? hfields

end PromptMetadata

/-! ## Prompts -/

/-- A parsed prompt is read from the entries of its metadata with a `template` among them. -/
theorem ParsedPrompt.ofJson?_eq_some_iff {v : Value} {p : ParsedPrompt} :
    ParsedPrompt.ofJson? v = some p ↔ ∃ fields, entries? v = some fields ∧
      PromptMetadata.ofEntries? fields = some p.metadata ∧
      required? Value.string? "template" fields = some p.template := by
  cases p
  simp only [ParsedPrompt.ofJson?, Option.bind_eq_bind, Option.bind_eq_some_iff]
  grind

/-- A parsed prompt is read back if no schema in its metadata is `null`. -/
theorem ParsedPrompt.ofJson?_toJson {p : ParsedPrompt} (h : p.metadata.NullFree) :
    ParsedPrompt.ofJson? p.toJson = some p := by
  refine ParsedPrompt.ofJson?_eq_some_iff.mpr ⟨_, rfl, ?_, ?_⟩
  · rw [PromptMetadata.ofEntries?_append fun k hk ↦ find?_entry_of_mem hk (by decide)]
    exact PromptMetadata.ofEntries?_toEntries h
  · apply required?_string
    rw [find?_append, PromptMetadata.find?_toEntries_of_notMem (by decide)]
    rfl

/-- A rendered prompt is read from the entries of its metadata with `messages` among them. -/
theorem RenderedPrompt.ofJson?_eq_some_iff {v : Value} {p : RenderedPrompt} :
    RenderedPrompt.ofJson? v = some p ↔ ∃ fields, entries? v = some fields ∧
      PromptMetadata.ofEntries? fields = some p.metadata ∧
      required? (list? Message.ofJson?) "messages" fields = some p.messages := by
  cases p
  simp only [RenderedPrompt.ofJson?, Option.bind_eq_bind, Option.bind_eq_some_iff]
  grind

/-- A rendered prompt is read back if no schema in its metadata is `null`. -/
theorem RenderedPrompt.ofJson?_toJson {p : RenderedPrompt} (h : p.metadata.NullFree) :
    RenderedPrompt.ofJson? p.toJson = some p := by
  refine RenderedPrompt.ofJson?_eq_some_iff.mpr ⟨_, rfl, ?_, ?_⟩
  · rw [PromptMetadata.ofEntries?_append fun k hk ↦ find?_entry_of_mem hk (by decide)]
    exact PromptMetadata.ofEntries?_toEntries h
  · apply required?_of_find? _ (list?_map fun m _ ↦ m.ofJson?_toJson)
    rw [find?_append, PromptMetadata.find?_toEntries_of_notMem (by decide)]
    rfl

/-! ## References -/

/-- A reference is read from a `name` and perhaps a `variant` and a `version`. -/
theorem PromptRef.ofEntries?_eq_some_iff {fields : List (String × Value)} {r : PromptRef} :
    PromptRef.ofEntries? fields = some r ↔
      required? Value.string? "name" fields = some r.name ∧
      optional? Value.string? "variant" fields = some r.variant ∧
      optional? Value.string? "version" fields = some r.version := by
  cases r
  simp only [PromptRef.ofEntries?, Option.bind_eq_bind, Option.bind_eq_some_iff]
  grind

/-- Entries under other keys do not matter to a reference. -/
theorem PromptRef.ofEntries?_append {as rest : List (String × Value)}
    (h : ∀ k ∈ ["name", "variant", "version"], OrderedMap.find? k rest = none) :
    PromptRef.ofEntries? (as ++ rest) = PromptRef.ofEntries? as := by
  simp [PromptRef.ofEntries?, required?_append, optional?_append, h]

/-- A reference reads back from its entries. -/
theorem PromptRef.ofEntries?_toEntries (r : PromptRef) :
    PromptRef.ofEntries? r.toEntries = some r := by
  refine PromptRef.ofEntries?_eq_some_iff.mpr ⟨?_, ?_, ?_⟩
  · exact required?_string (by simp [toEntries])
  · exact optional?_string (by simp [toEntries])
  · exact optional?_string (by simp [toEntries])

/-- Every reference is read back. -/
theorem PromptRef.ofJson?_toJson (r : PromptRef) : PromptRef.ofJson? r.toJson = some r := by
  rw [ofJson?, toJson, record?, Option.bind_some, ofEntries?_toEntries]

/-- A stored prompt is read from the entries of its reference with a `source` among them. -/
theorem PromptData.ofJson?_eq_some_iff {v : Value} {p : PromptData} :
    PromptData.ofJson? v = some p ↔ ∃ fields, entries? v = some fields ∧
      PromptRef.ofEntries? fields = some p.ref ∧
      required? Value.string? "source" fields = some p.source := by
  cases p
  simp only [PromptData.ofJson?, Option.bind_eq_bind, Option.bind_eq_some_iff]
  grind

/-- Every stored prompt is read back. -/
theorem PromptData.ofJson?_toJson (p : PromptData) : PromptData.ofJson? p.toJson = some p := by
  refine PromptData.ofJson?_eq_some_iff.mpr ⟨_, rfl, ?_, ?_⟩
  · rw [PromptRef.ofEntries?_append fun k hk ↦ find?_entry_of_mem hk (by decide)]
    exact p.ref.ofEntries?_toEntries
  · exact required?_string (by simp [PromptRef.toEntries])

/-! ## The whole data model -/

/-- Every type of the data model round-trips: where no schema is `null`, a value is read back
exactly, and no other value is ever read. -/
theorem roundTrips_dataModel :
    RoundTrips (fun _ ↦ True) Role.toJson Role.ofJson? ∧
    RoundTrips (fun _ ↦ True) Media.toJson Media.ofJson? ∧
    RoundTrips (fun _ ↦ True) Part.toJson Part.ofJson? ∧
    RoundTrips (fun _ ↦ True) Message.toJson Message.ofJson? ∧
    RoundTrips (fun _ ↦ True) Document.toJson Document.ofJson? ∧
    RoundTrips (fun _ ↦ True) RenderData.toJson RenderData.ofJson? ∧
    RoundTrips ToolDefinition.NullFree ToolDefinition.toJson ToolDefinition.ofJson? ∧
    RoundTrips PromptInput.NullFree PromptInput.toJson PromptInput.ofJson? ∧
    RoundTrips PromptOutput.NullFree PromptOutput.toJson PromptOutput.ofJson? ∧
    RoundTrips PromptMetadata.NullFree PromptMetadata.toJson PromptMetadata.ofJson? ∧
    RoundTrips (·.metadata.NullFree) ParsedPrompt.toJson ParsedPrompt.ofJson? ∧
    RoundTrips (·.metadata.NullFree) RenderedPrompt.toJson RenderedPrompt.ofJson? ∧
    RoundTrips (fun _ ↦ True) PromptRef.toJson PromptRef.ofJson? ∧
    RoundTrips (fun _ ↦ True) PromptData.toJson PromptData.ofJson? := by
  refine ⟨.of (fun r _ ↦ r.ofJson?_toJson) fun _ _ _ ↦ trivial,
    .of (fun m _ ↦ m.ofJson?_toJson) fun _ _ _ ↦ trivial,
    .of (fun p _ ↦ p.ofJson?_toJson) fun _ _ _ ↦ trivial,
    .of (fun m _ ↦ m.ofJson?_toJson) fun _ _ _ ↦ trivial,
    .of (fun d _ ↦ d.ofJson?_toJson) fun _ _ _ ↦ trivial,
    .of (fun d _ ↦ d.ofJson?_toJson) fun _ _ _ ↦ trivial,
    .of (fun _ h ↦ ToolDefinition.ofJson?_toJson h)
      fun _ _ h ↦ ToolDefinition.nullFree_of_ofJson? h,
    .of (fun _ h ↦ PromptInput.ofJson?_toJson h) fun _ _ h ↦ PromptInput.nullFree_of_ofJson? h,
    .of (fun _ h ↦ PromptOutput.ofJson?_toJson h) fun _ _ h ↦ PromptOutput.nullFree_of_ofJson? h,
    .of (fun _ h ↦ PromptMetadata.ofJson?_toJson h)
      fun _ _ h ↦ PromptMetadata.nullFree_of_ofJson? h,
    .of (fun _ h ↦ ParsedPrompt.ofJson?_toJson h) fun _ _ h ↦ ?_,
    .of (fun _ h ↦ RenderedPrompt.ofJson?_toJson h) fun _ _ h ↦ ?_,
    .of (fun r _ ↦ r.ofJson?_toJson) fun _ _ _ ↦ trivial,
    .of (fun p _ ↦ p.ofJson?_toJson) fun _ _ _ ↦ trivial⟩
  · obtain ⟨fields, -, hmetadata, -⟩ := ParsedPrompt.ofJson?_eq_some_iff.mp h
    exact PromptMetadata.nullFree_of_ofEntries? hmetadata
  · obtain ⟨fields, -, hmetadata, -⟩ := RenderedPrompt.ofJson?_eq_some_iff.mp h
    exact PromptMetadata.nullFree_of_ofEntries? hmetadata

end PromptDoc
