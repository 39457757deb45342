import Mathlib
import PromptDoc.Metadata.Resolve

/-!
# What a resolution gives

A resolution lays metadata over the defaults of its model, resolves the tool names and compiles the
two schemas. Main statements: what a successful resolution consists of (`resolve_eq_ok_iff`), and
which layer gives the model and each value of the configuration (`resolve_precedence`).
-/

namespace PromptDoc

open Json

namespace Resolver

variable {r : Resolver} {m out : PromptMetadata}

/-! ### Runs -/

/-- A schema compiles when its node does. -/
theorem compileSchema_some_eq_ok_iff {field : SchemaField} {node : Value}
    {compiled : Option Value} :
    (r.compileSchema field (some node)).result = .ok compiled ↔
      ∃ s, (Shorthand.compile (some r.lookupSchema) node).result = .ok s ∧
        s.map Schema.toJson = compiled := by
  unfold compileSchema
  rw [Traced.result_bind_eq_ok_iff]
  simp only [Traced.result_mapError_eq_ok_iff, Traced.result_pure, Except.ok.injEq]

/-- An input with its schema compiled. -/
def CompilesInput (r : Resolver) (given compiled : PromptInput) : Prop :=
  (r.compileSchema .input given.schema).result = .ok compiled.schema ∧
    compiled.default = given.default

/-- An output with its schema compiled. -/
def CompilesOutput (r : Resolver) (given compiled : PromptOutput) : Prop :=
  (r.compileSchema .output given.schema).result = .ok compiled.schema ∧
    compiled.format = given.format

/-- Compiling the input changes nothing else. -/
theorem compileInput_eq_ok_iff :
    (r.compileInput m).result = .ok out ↔
      ∃ input, Option.Rel r.CompilesInput m.input input ∧ out = { m with input } := by
  unfold compileInput
  cases hinput : m.input with
  | none =>
    have hsame : m = { m with input := none } := by rw [← hinput]
    constructor
    · intro h
      cases h
      exact ⟨none, .none, hsame⟩
    · rintro ⟨input, hrel, rfl⟩
      cases hrel
      exact congrArg Except.ok hsame
  | some i =>
    rw [Traced.result_bind_eq_ok_iff]
    constructor
    · rintro ⟨schema, hschema, h⟩
      cases h
      exact ⟨some { i with schema }, .some ⟨hschema, rfl⟩, rfl⟩
    · rintro ⟨input, hrel, rfl⟩
      cases hrel with
      | some hcompiled =>
        refine ⟨_, hcompiled.1, ?_⟩
        rw [← hcompiled.2]
        rfl

/-- Compiling the output changes nothing else. -/
theorem compileOutput_eq_ok_iff :
    (r.compileOutput m).result = .ok out ↔
      ∃ output, Option.Rel r.CompilesOutput m.output output ∧ out = { m with output } := by
  unfold compileOutput
  cases houtput : m.output with
  | none =>
    have hsame : m = { m with output := none } := by rw [← houtput]
    constructor
    · intro h
      cases h
      exact ⟨none, .none, hsame⟩
    · rintro ⟨output, hrel, rfl⟩
      cases hrel
      exact congrArg Except.ok hsame
  | some o =>
    rw [Traced.result_bind_eq_ok_iff]
    constructor
    · rintro ⟨schema, hschema, h⟩
      cases h
      exact ⟨some { o with schema }, .some ⟨hschema, rfl⟩, rfl⟩
    · rintro ⟨output, hrel, rfl⟩
      cases hrel with
      | some hcompiled =>
        refine ⟨_, hcompiled.1, ?_⟩
        rw [← hcompiled.2]
        rfl

/-- Resolving the tool names changes nothing else. -/
theorem withTools_eq_ok_iff :
    (r.withTools m).result = .ok out ↔
      ∃ defs left, (r.resolveTools m.tools).result = .ok (defs, left) ∧
        out = { m with tools := left, toolDefs := m.toolDefs ++ defs } := by
  unfold withTools
  rw [Traced.result_bind_eq_ok_iff]
  constructor
  · rintro ⟨⟨defs, left⟩, htools, h⟩
    cases h
    exact ⟨defs, left, htools, rfl⟩
  · rintro ⟨defs, left, htools, rfl⟩
    exact ⟨(defs, left), htools, rfl⟩

/-- A resolution succeeds when the tool names resolve and both schemas compile, and gives the merged
metadata with these. -/
theorem resolve_eq_ok_iff {parsed : PromptMetadata} {overrides : Option PromptMetadata} :
    (r.resolve parsed overrides).result = .ok out ↔
      let m := r.merged parsed overrides
      ∃ defs left input output, (r.resolveTools m.tools).result = .ok (defs, left) ∧
        Option.Rel r.CompilesInput m.input input ∧ Option.Rel r.CompilesOutput m.output output ∧
        out = { m with tools := left, toolDefs := m.toolDefs ++ defs, input, output } := by
  dsimp only
  rw [resolve, Traced.result_bind_eq_ok_iff]
  constructor
  · rintro ⟨m₁, hm₁, h⟩
    obtain ⟨m₂, hm₂, hout⟩ := Traced.result_bind_eq_ok_iff.mp h
    obtain ⟨defs, left, htools, rfl⟩ := withTools_eq_ok_iff.mp hm₁
    obtain ⟨input, hinput, rfl⟩ := compileInput_eq_ok_iff.mp hm₂
    obtain ⟨output, houtput, rfl⟩ := compileOutput_eq_ok_iff.mp hout
    exact ⟨defs, left, input, output, htools, hinput, houtput, rfl⟩
  · rintro ⟨defs, left, input, output, htools, hinput, houtput, rfl⟩
    refine ⟨_, withTools_eq_ok_iff.mpr ⟨defs, left, htools, rfl⟩, ?_⟩
    rw [Traced.result_bind_eq_ok_iff]
    refine ⟨_, compileInput_eq_ok_iff.mpr ⟨input, hinput, rfl⟩, ?_⟩
    exact compileOutput_eq_ok_iff.mpr ⟨output, houtput, rfl⟩

/-! ### Layers -/

/-- The default configuration of a model. -/
def configOf (r : Resolver) (model : Option String) : Fields :=
  (model.bind r.modelConfigs.get?).getD ∅

section Merged

variable (r : Resolver) (parsed : PromptMetadata) (overrides : Option PromptMetadata)

/-- The model that the layers name is the one whose configuration was looked up. -/
theorem model_merged : (r.merged parsed overrides).model = r.effectiveModel parsed overrides := by
  have hlayer (upper : PromptMetadata) (lower : Option String) :
      overlayText lower upper.model = (namedModel upper).or lower := rfl
  cases overrides with
  | none =>
    show overlayText (r.effectiveModel parsed none) parsed.model = _
    rw [hlayer, effectiveModel]
    cases namedModel parsed with
    | none => rfl
    | some model => rfl
  | some upper =>
    show overlayText (overlayText (r.effectiveModel parsed (some upper)) parsed.model) upper.model =
      r.effectiveModel parsed (some upper)
    rw [hlayer, hlayer, effectiveModel, Option.bind_some]
    cases namedModel upper with
    | none => cases namedModel parsed with
      | none => rfl
      | some model => rfl
    | some model => rfl

/-- The model is the first that is named: by the caller, by the prompt, by default. -/
theorem effectiveModel_eq : r.effectiveModel parsed overrides =
    ([overrides.bind (·.model), parsed.model].findSome? fun m ↦ m.filter (· ≠ "")).or
      r.defaultModel := by
  have hnamed (m : PromptMetadata) : namedModel m = m.model.filter (· ≠ "") := by
    rw [namedModel]
    congr 1
    funext s
    rw [Bool.eq_iff_iff]
    simp
  have hcaller : overrides.bind namedModel = (overrides.bind (·.model)).filter (· ≠ "") := by
    cases overrides with
    | none => rfl
    | some upper => exact hnamed upper
  rw [effectiveModel, hcaller, hnamed, List.findSome?_cons, List.findSome?_cons, List.findSome?_nil]
  cases (overrides.bind (·.model)).filter (· ≠ "") with
  | some model => rfl
  | none => cases parsed.model.filter (· ≠ "") with
    | some model => rfl
    | none => rfl

/-- The configuration is that of the model, with the prompt's and the caller's laid over it. -/
theorem config_merged : (r.merged parsed overrides).config =
    ((r.configOf (r.effectiveModel parsed overrides)).extend parsed.config).extend
      ((overrides.map (·.config)).getD ∅) := by
  cases overrides with
  | none => rfl
  | some upper => rfl

end Merged

/-- The model of a resolution is the first that is named, by the caller, the prompt or as the
default. Each value of its configuration is the caller's, else the prompt's, else the one of that
model, and the keys stand in the order in which these layers, from the lowest, first have them. -/
theorem resolve_precedence (r : Resolver) (parsed : PromptMetadata)
    (overrides : Option PromptMetadata) {out : PromptMetadata}
    (h : (r.resolve parsed overrides).result = .ok out) :
    let model := ([overrides.bind (·.model), parsed.model].findSome? fun m ↦ m.filter (· ≠ "")).or
      r.defaultModel
    let upper := (overrides.map (·.config)).getD ∅
    r.effectiveModel parsed overrides = model ∧ out.model = model ∧
      (∀ k, out.config.get? k =
        (upper.get? k).or ((parsed.config.get? k).or ((r.configOf model).get? k))) ∧
      out.config.keys =
        ((r.configOf model).keys ++ parsed.config.keys ++ upper.keys).eraseDups := by
  obtain ⟨defs, left, input, output, -, -, -, rfl⟩ := resolve_eq_ok_iff.mp h
  intro model upper
  have hmodel : r.effectiveModel parsed overrides = model := effectiveModel_eq r parsed overrides
  have hconfig : (r.merged parsed overrides).config =
      ((r.configOf model).extend parsed.config).extend upper := by
    rw [← hmodel]
    exact config_merged r parsed overrides
  refine ⟨hmodel, (model_merged r parsed overrides).trans hmodel, ?_, ?_⟩
  · intro k
    show (r.merged parsed overrides).config.get? k = _
    rw [hconfig, OrderedMap.get?_extend, OrderedMap.get?_extend]
  · show (r.merged parsed overrides).config.keys = _
    have hlower := OrderedMap.eraseDups_append_keys (r.configOf model).eraseDups_keys parsed.config
    rw [hconfig, OrderedMap.eraseDups_append_keys hlower]

/-- The caller names an empty model and the prompt another one than the default; all three layers
have a configuration, with keys in common. -/
theorem resolve_precedence_empty_override :
    let r : Resolver :=
      { defaultModel := some "base"
        modelConfigs := .ofList
          [("base", .ofList [("stop", .null)]),
            ("front", .ofList [("temperature", .ofNat 1), ("topK", .ofNat 3)])] }
    let parsed : PromptMetadata :=
      { model := some "front", config := .ofList [("seed", .ofNat 5), ("topK", .ofNat 4)] }
    let caller : PromptMetadata :=
      { model := some "", config := .ofList [("topK", .ofNat 9), ("format", .null)] }
    ∃ out, (r.resolve parsed (some caller)).result = .ok out ∧ out.model = some "front" ∧
      out.config.keys = ["temperature", "topK", "seed", "format"] ∧
      out.config.get? "topK" = some (.ofNat 9) ∧ out.config.get? "stop" = none := by
  intro r parsed caller
  have hrun : (r.resolve parsed (some caller)).result =
      .ok (r.merged parsed (some caller)) := by cbv
  obtain ⟨-, hmodel, hconfig, hkeys⟩ := resolve_precedence r parsed (some caller) hrun
  refine ⟨_, hrun, ?_, ?_, ?_, ?_⟩
  · rw [hmodel]
    decide
  · rw [hkeys]
    decide +kernel
  · rw [hconfig]
    decide +kernel
  · rw [hconfig]
    decide +kernel

end Resolver

end PromptDoc
