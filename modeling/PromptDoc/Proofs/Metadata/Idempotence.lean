import PromptDoc.Proofs.Metadata.Resolution
import PromptDoc.Proofs.Schema.Finished

/-!
# Resolving resolved metadata

Resolved metadata that is resolved once more keeps its model, its configuration and its tools. Its
schemas are compiled once more, and inputs and outputs that say nothing are dropped. Main statement:
a resolution leaves resolved metadata as it is exactly when its input and output say something and
the schemas were given by nodes that last (`resolve_again_iff`).
-/

namespace PromptDoc

open Json Shorthand

/-! ### Metadata without empty texts -/

section Overlay

variable {α : Type} {p : α → Bool} {lower upper : Option α}

/-- What lies over a value that counts counts as well. -/
theorem forall_mem_filter_or (h : ∀ x ∈ lower, p x = true) :
    ∀ x ∈ (upper.filter p).or lower, p x = true := by
  cases hupper : upper.filter p with
  | none => simpa using h
  | some y =>
    intro x hx
    cases hx
    exact (Option.filter_eq_some_iff.mp hupper).2

/-- What counts comes through over nothing. -/
theorem filter_or_none (h : ∀ x ∈ upper, p x = true) : (upper.filter p).or none = upper := by
  cases upper with
  | none => rfl
  | some x => simp [h x rfl]

/-- A value over itself is itself, whether it counts or not. -/
theorem filter_or_self (p : α → Bool) (x : Option α) : (x.filter p).or x = x := by
  cases x with
  | none => rfl
  | some a =>
    rw [Option.filter_some]
    split
    · rfl
    · rfl

end Overlay

/-- No text is there and empty, and no number of turns is zero; the model is left open. -/
structure PromptMetadata.Solid (m : PromptMetadata) : Prop where
  name : ∀ s ∈ m.name, (!s.isEmpty) = true
  variant : ∀ s ∈ m.variant, (!s.isEmpty) = true
  version : ∀ s ∈ m.version, (!s.isEmpty) = true
  description : ∀ s ∈ m.description, (!s.isEmpty) = true
  maxTurns : ∀ n ∈ m.maxTurns, decide (n ≠ 0) = true
  format : ∀ o ∈ m.output, ∀ s ∈ o.format, (!s.isEmpty) = true

namespace PromptMetadata

/-- Metadata laid over metadata without empty texts has none. -/
theorem Solid.merge {lower : PromptMetadata} (h : lower.Solid) (upper : PromptMetadata) :
    (lower.merge upper).Solid where
  name := forall_mem_filter_or h.name
  variant := forall_mem_filter_or h.variant
  version := forall_mem_filter_or h.version
  description := forall_mem_filter_or h.description
  maxTurns := forall_mem_filter_or h.maxTurns
  format := by
    show ∀ o ∈ PromptOutput.overlay lower.output upper.output, _
    unfold PromptOutput.overlay
    split
    · exact h.format
    · intro o ho
      cases ho
      apply forall_mem_filter_or
      cases hlower : lower.output with
      | none => simp
      | some o => exact h.format o hlower

/-- An input comes through over nothing if it says something. -/
theorem overlay_input (upper : Option PromptInput) :
    PromptInput.overlay none upper = upper.filter fun i ↦ !i.isEmpty := by
  unfold PromptInput.overlay
  cases upper.filter fun i ↦ !i.isEmpty with
  | none => rfl
  | some i =>
    have hdefault : (if i.default.isEmpty then ∅ else i.default) = i.default := by
      split
      · next hempty => exact (OrderedMap.isEmpty_iff.mp hempty).symm
      · rfl
    have hschema : overlay none i.schema = i.schema := Option.or_none
    show some
      (PromptInput.mk (if i.default.isEmpty then ∅ else i.default) (overlay none i.schema)) = some i
    rw [hdefault, hschema]

/-- An output without an empty format comes through over nothing if it says something. -/
theorem overlay_output {upper : Option PromptOutput}
    (h : ∀ o ∈ upper, ∀ s ∈ o.format, (!s.isEmpty) = true) :
    PromptOutput.overlay none upper = upper.filter fun o ↦ !o.isEmpty := by
  unfold PromptOutput.overlay
  cases hupper : upper.filter fun o ↦ !o.isEmpty with
  | none => rfl
  | some o =>
    have hformat : overlayText none o.format = o.format :=
      filter_or_none (h o (Option.filter_eq_some_iff.mp hupper).1)
    have hschema : overlay none o.schema = o.schema := Option.or_none
    show some (PromptOutput.mk (overlayText none o.format) (overlay none o.schema)) = some o
    rw [hformat, hschema]

/-- Metadata without empty texts comes through over a model and a configuration, with the input and
the output if they say something. -/
theorem merge_solid {m : PromptMetadata} (h : m.Solid) {model : Option String} {config : Fields}
    (hmodel : overlayText model m.model = m.model) (hconfig : config.extend m.config = m.config) :
    ({ model, config } : PromptMetadata).merge m =
      { m with input := m.input.filter fun i ↦ !i.isEmpty
               output := m.output.filter fun o ↦ !o.isEmpty } := by
  have hlist {α : Type} (xs : List α) : overlayList [] xs = xs := by
    cases xs with
    | nil => rfl
    | cons x xs => rfl
  have hext : (if m.ext.isEmpty then ∅ else m.ext) = m.ext := by
    split
    · next hempty => exact SortedMap.ext (List.isEmpty_iff.mp hempty).symm
    · rfl
  have hgiven {α : Type} (x : Option α) : overlay none x = x := Option.or_none
  have htext {x : Option String} (hx : ∀ s ∈ x, (!s.isEmpty) = true) : overlayText none x = x :=
    filter_or_none hx
  have hturns : overlayTurns none m.maxTurns = m.maxTurns := filter_or_none h.maxTurns
  rw [merge]
  dsimp only
  rw [htext h.name, htext h.variant, htext h.version, htext h.description, hmodel, hturns, hlist,
    hlist, hconfig, overlay_input, overlay_output h.format, hgiven, hext, hgiven]

end PromptMetadata

namespace Resolver

variable {r : Resolver} {parsed out : PromptMetadata} {overrides : Option PromptMetadata}

/-! ### Merging once more -/

/-- Merging drops empty texts. -/
theorem solid_merged : (r.merged parsed overrides).Solid := by
  have hbase (model : Option String) (config : Fields) :
      ({ model, config } : PromptMetadata).Solid := by
    constructor <;> simp
  cases overrides with
  | none => exact (hbase _ _).merge parsed
  | some upper => exact ((hbase _ _).merge parsed).merge upper

/-- The model of a resolution is the effective model of what it gives. -/
theorem effectiveModel_again (h : out.model = r.effectiveModel parsed overrides) :
    r.effectiveModel out none = out.model := by
  show (namedModel out).or r.defaultModel = out.model
  unfold effectiveModel at h
  cases hnamed : (overrides.bind namedModel).or (namedModel parsed) with
  | some s =>
    have hs : ∀ s ∈ (overrides.bind namedModel).or (namedModel parsed), (!s.isEmpty) = true := by
      cases overrides with
      | none => exact fun s hs ↦ (Option.filter_eq_some_iff.mp hs).2
      | some upper => exact forall_mem_filter_or fun s hs ↦ (Option.filter_eq_some_iff.mp hs).2
    rw [hnamed] at h hs
    rw [namedModel, h, Option.some_or, Option.filter_some, if_pos (hs s rfl), Option.some_or]
  | none =>
    rw [hnamed, Option.none_or] at h
    rw [namedModel, h, filter_or_self]

/-- The configuration of a resolution begins with the one of its model, which thus adds nothing. -/
theorem extend_config_again (hmodel : out.model = r.effectiveModel parsed overrides)
    (hconfig : out.config = (r.merged parsed overrides).config) :
    (r.configOf out.model).extend out.config = out.config := by
  apply OrderedMap.extend_eq_of_prefix
  rw [hconfig, config_merged, hmodel, OrderedMap.keys_extend, OrderedMap.keys_extend,
    List.append_assoc]
  exact List.prefix_append _ _

/-- The tool names that were left are left once more. -/
theorem resolveTools_left {names left : List String} {defs : List ToolDefinition}
    (h : (r.resolveTools names).result = .ok (defs, left)) :
    (r.resolveTools left).result = .ok ([], left) := by
  induction names generalizing defs left with
  | nil =>
    cases h
    rfl
  | cons name rest ih =>
    unfold resolveTools at h
    split at h
    · obtain ⟨⟨defs', left'⟩, hrest, h⟩ := Traced.result_bind_eq_ok_iff.mp h
      cases h
      exact ih hrest
    · next hregistry hcallback =>
      obtain ⟨⟨defs', left'⟩, hrest, h⟩ := Traced.result_bind_eq_ok_iff.mp h
      cases h
      unfold resolveTools
      rw [hregistry, hcallback]
      exact Traced.result_bind_eq_ok_iff.mpr ⟨_, ih hrest, rfl⟩
    · obtain ⟨t, -, h⟩ := Traced.result_bind_eq_ok_iff.mp h
      obtain ⟨⟨defs', left'⟩, hrest, h⟩ := Traced.result_bind_eq_ok_iff.mp h
      cases h
      exact ih hrest

/-- What a resolution gives has no empty texts. -/
theorem solid_resolve (h : (r.resolve parsed overrides).result = .ok out) : out.Solid := by
  obtain ⟨defs, left, input, output, -, -, houtput, rfl⟩ := resolve_eq_ok_iff.mp h
  have hmerged : (r.merged parsed overrides).Solid := solid_merged
  refine ⟨hmerged.name, hmerged.variant, hmerged.version, hmerged.description, hmerged.maxTurns, ?_⟩
  intro o ho
  obtain rfl : output = some o := ho
  cases hgiven : (r.merged parsed overrides).output with
  | none =>
    rw [hgiven] at houtput
    cases houtput
  | some given =>
    rw [hgiven] at houtput
    cases houtput with
    | some hcompiled =>
      rw [hcompiled.2]
      exact hmerged.format given hgiven

/-- What a resolution gives is merged to itself, less an input and an output that say nothing. -/
theorem merged_again (h : (r.resolve parsed overrides).result = .ok out) :
    r.merged out none = { out with input := out.input.filter fun i ↦ !i.isEmpty
                                   output := out.output.filter fun o ↦ !o.isEmpty } := by
  have hsolid := solid_resolve h
  obtain ⟨defs, left, input, output, -, -, -, hout⟩ := resolve_eq_ok_iff.mp h
  have hmodel : out.model = r.effectiveModel parsed overrides := by
    rw [hout]
    exact model_merged r parsed overrides
  have hconfig := extend_config_again hmodel (by rw [hout])
  have hagain := effectiveModel_again hmodel
  show ({ model := r.effectiveModel out none, config := r.configOf (r.effectiveModel out none) } :
    PromptMetadata).merge out = _
  rw [hagain]
  exact PromptMetadata.merge_solid hsolid (filter_or_self _ _) hconfig

/-! ### Compiling once more -/

/-- A compiled schema stays as it is when the node that gave it lasts. -/
theorem compileSchema_again_iff {field : SchemaField} {given compiled : Option Value}
    (h : (r.compileSchema field given).result = .ok compiled) :
    (r.compileSchema field compiled).result = .ok compiled ↔
      ∀ node ∈ given, Lasts (some r.lookupSchema) node := by
  cases given with
  | none =>
    cases h
    simp [compileSchema]
  | some node =>
    have hlasts : (∀ n ∈ some node, Lasts (some r.lookupSchema) n) ↔
        Lasts (some r.lookupSchema) node := by simp
    rw [hlasts]
    obtain ⟨s, hs, rfl⟩ := compileSchema_some_eq_ok_iff.mp h
    cases s with
    | none =>
      rw [eq_null_of_compile hs]
      exact iff_of_true rfl trivial
    | some s =>
      rw [← finished_iff_lasts hs, ← compile_toJson_eq_self_iff (some r.lookupSchema),
        Option.map_some, compileSchema_some_eq_ok_iff]
      constructor
      · rintro ⟨again, hagain, heq⟩
        cases again with
        | none => cases heq
        | some s' =>
          have hread := congrArg Schema.ofJson? (Option.some.inj heq)
          rw [Schema.ofJson?_toJson, Schema.ofJson?_toJson] at hread
          rwa [← hread]
      · intro hs'
        exact ⟨some s, hs', rfl⟩

/-- A compiled record stays as it is when it counts and the node of its schema lasts. -/
theorem rel_again_iff {α : Type} {R : α → α → Prop} {field : SchemaField}
    {schemaOf : α → Option Value}
    (hcompiles : ∀ a b, R a b → (r.compileSchema field (schemaOf a)).result = .ok (schemaOf b))
    (hself : ∀ b, (r.compileSchema field (schemaOf b)).result = .ok (schemaOf b) → R b b)
    {given compiled : Option α} (h : Option.Rel R given compiled) (p : α → Bool) :
    Option.Rel R (compiled.filter p) compiled ↔
      (∀ b ∈ compiled, p b = true) ∧
        ∀ node ∈ given.bind schemaOf, Lasts (some r.lookupSchema) node := by
  cases h with
  | none => exact iff_of_true .none (by simp)
  | @some a b hab =>
    have hagain := compileSchema_again_iff (hcompiles a b hab)
    rw [Option.bind_some, Option.filter_some, ← hagain]
    constructor
    · intro hrel
      split at hrel
      · next hp =>
        cases hrel with
        | some hb => exact ⟨by simpa using hp, hcompiles b b hb⟩
      · cases hrel
    · rintro ⟨hp, hb⟩
      rw [if_pos (hp b rfl)]
      exact .some (hself b hb)

/-- An input says something unless it has neither defaults nor a schema. -/
theorem forall_input_iff {input : Option PromptInput} :
    (∀ i ∈ input, (!i.isEmpty) = true) ↔ input ≠ some {} := by
  cases input with
  | none => simp
  | some i => simp [← PromptInput.isEmpty_iff]

/-- An output says something unless it has neither a format nor a schema. -/
theorem forall_output_iff {output : Option PromptOutput} :
    (∀ o ∈ output, (!o.isEmpty) = true) ↔ output ≠ some {} := by
  cases output with
  | none => simp
  | some o => simp [← PromptOutput.isEmpty_iff]

/-- A second resolution finds the tool names that the first one left, and compiles the schemas. -/
theorem resolve_again_eq_ok_iff {again : PromptMetadata}
    (h : (r.resolve parsed overrides).result = .ok out) :
    (r.resolve out none).result = .ok again ↔
      ∃ input output, Option.Rel r.CompilesInput (out.input.filter fun i ↦ !i.isEmpty) input ∧
        Option.Rel r.CompilesOutput (out.output.filter fun o ↦ !o.isEmpty) output ∧
        again = { out with input, output } := by
  have hleft : (r.resolveTools out.tools).result = .ok ([], out.tools) := by
    obtain ⟨defs, left, input, output, htools, -, -, rfl⟩ := resolve_eq_ok_iff.mp h
    exact resolveTools_left htools
  rw [resolve_eq_ok_iff]
  dsimp only
  rw [merged_again h]
  constructor
  · rintro ⟨defs, left, input, output, htools, hinput, houtput, heq⟩
    rw [hleft] at htools
    cases htools
    refine ⟨input, output, hinput, houtput, ?_⟩
    rw [heq, List.append_nil]
  · rintro ⟨input, output, hinput, houtput, heq⟩
    refine ⟨[], out.tools, input, output, hleft, hinput, houtput, ?_⟩
    rw [heq, List.append_nil]

/-- What a resolution gives is left as it is by a second one exactly when its input and output are
not there for nothing and the nodes of its schemas last. A second resolution changes in any case
nothing but the input and the output. Mappings with distinct keys all last. -/
theorem resolve_again_iff (r : Resolver) (parsed : PromptMetadata)
    (overrides : Option PromptMetadata) {out : PromptMetadata}
    (h : (r.resolve parsed overrides).result = .ok out) :
    ((r.resolve out none).result = .ok out ↔
      (out.input ≠ some {} ∧ out.output ≠ some {}) ∧
        (∀ node ∈ (r.merged parsed overrides).inputSchema?, Lasts (some r.lookupSchema) node) ∧
        ∀ node ∈ (r.merged parsed overrides).outputSchema?, Lasts (some r.lookupSchema) node) ∧
      (∀ again, (r.resolve out none).result = .ok again →
        again = { out with input := again.input, output := again.output }) ∧
      ∀ fields : List (String × Value), (fields.map Prod.fst).Nodup →
        Lasts (some r.lookupSchema) (.object fields) := by
  obtain ⟨defs, left, input, output, -, hinput, houtput, hout⟩ := resolve_eq_ok_iff.mp h
  have hkeptInput := rel_again_iff (R := r.CompilesInput) (fun _ _ hab ↦ hab.1)
    (fun _ hb ↦ ⟨hb, rfl⟩) hinput fun i ↦ !i.isEmpty
  have hkeptOutput := rel_again_iff (R := r.CompilesOutput) (fun _ _ hab ↦ hab.1)
    (fun _ hb ↦ ⟨hb, rfl⟩) houtput fun o ↦ !o.isEmpty
  rw [forall_input_iff] at hkeptInput
  rw [forall_output_iff] at hkeptOutput
  refine ⟨?_, ?_, fun fields hnodup ↦ lasts_object _ hnodup⟩
  · have hself : (r.resolve out none).result = .ok out ↔
        Option.Rel r.CompilesInput (input.filter fun i ↦ !i.isEmpty) input ∧
          Option.Rel r.CompilesOutput (output.filter fun o ↦ !o.isEmpty) output := by
      rw [resolve_again_eq_ok_iff h, hout]
      constructor
      · rintro ⟨input', output', hinput', houtput', heq⟩
        cases heq
        exact ⟨hinput', houtput'⟩
      · rintro ⟨hinput', houtput'⟩
        exact ⟨input, output, hinput', houtput', rfl⟩
    rw [hself, hkeptInput, hkeptOutput, hout]
    exact and_and_and_comm
  · intro again hagain
    obtain ⟨input', output', -, -, rfl⟩ := (resolve_again_eq_ok_iff h).mp hagain
    rfl

/-- A known tool is moved once and an unknown one stays, beside a schema known by name and one
written as shorthand. -/
theorem resolve_again_registered :
    let r : Resolver :=
      { defaultModel := some "base", tools := .ofList [("search", { name := "search" })]
        schemas := .ofList [("Person", Schema.ofType "object")] }
    let parsed : PromptMetadata :=
      { tools := ["search", "mystery"], input := some { schema := some (.string "Person, whom") }
        output := some { schema := some (.object [("age?", .string "integer")]) } }
    let personSchema : Value :=
      .object [("type", .string "object"), ("description", .string "whom")]
    let ageSchema : Value :=
      .object [("type", .string "object"), ("properties", .object [("age", .object [("anyOf",
        .array [.object [("type", .string "integer")], .object [("type", .string "null")]])])])]
    let out : PromptMetadata :=
      { model := some "base", tools := ["mystery"], toolDefs := [{ name := "search" }]
        input := some { schema := some personSchema }, output := some { schema := some ageSchema } }
    (r.resolve parsed none).result = .ok out ∧ (r.resolve out none).result = .ok out := by
  intro r parsed personSchema ageSchema out
  have hrun : (r.resolve parsed none).result = .ok out :=
    Traced.result_eq_ok_of_toOption (by decide +kernel)
  obtain ⟨hself, -, hmappings⟩ := resolve_again_iff r parsed none hrun
  refine ⟨hrun, hself.mpr ⟨⟨by decide, by decide⟩, ?_, ?_⟩⟩
  · intro node hnode
    cases hnode
    have hname : TypePart "Person, whom" "Person" := typePart_iff.mpr (by decide)
    have hlookup : (r.lookupSchema "Person").result = .ok (some (Schema.ofType "object")) := by cbv
    refine ⟨"Person", hname, ?_⟩
    rw [NameLasts, if_neg (by decide), if_neg (by decide)]
    exact ⟨Schema.ofType "object", ⟨r.lookupSchema, rfl, hlookup⟩, finished_ofType (by decide)⟩
  · intro node hnode
    cases hnode
    exact hmappings _ (by decide)

/-- The schema of any value is read as shorthand for an object the second time. -/
theorem not_resolve_again_any :
    let r : Resolver := {}
    let parsed : PromptMetadata := { input := some { schema := some (.string "any") } }
    ∃ out, (r.resolve parsed none).result = .ok out ∧ (r.resolve out none).result ≠ .ok out := by
  intro r parsed
  let out : PromptMetadata := { input := some { schema := some (.object []) } }
  refine ⟨out, by cbv, ?_⟩
  intro hagain
  have hkept : (r.resolve out none).result.toOption = some out := by rw [hagain]; rfl
  exact absurd hkept (by decide +kernel)

end Resolver

end PromptDoc
