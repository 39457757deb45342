import PromptDoc.Proofs.Compiler.Includes
import PromptDoc.Proofs.Metadata.Resolution

/-!
# Metadata given at compile time

The metadata that a document is compiled with is one more layer, between the front matter and what
is given at render time, and it has a model and a configuration only. A resolution looks at these
two nowhere else than in the layers, so the rest of its outcome and its calls are those of the front
matter alone. Main statement: the model and the configuration of a rendered prompt layer by layer,
and two arguments that agree on model and configuration give the same runs
(`compile_render_layers`).
-/

namespace PromptDoc

open Json

/-! ### A layer of a model and a configuration -/

/-- The first of two texts that is not empty, where a text is laid over another one. -/
theorem findSome?_overlayText (texts : List (Option String)) (lower upper : Option String) :
    (texts ++ [overlayText lower upper]).findSome? (fun t ↦ t.filter (· ≠ "")) =
      (texts ++ [upper, lower]).findSome? fun t ↦ t.filter (· ≠ "") := by
  rw [List.findSome?_append, List.findSome?_append]
  congr 1
  cases upper with
  | none => rfl
  | some s =>
    by_cases hs : s = ""
    · rw [hs]
      rfl
    · simp [overlayText, Option.filter_some, hs]

namespace PromptMetadata

/-- The model of a layer that may be missing. -/
def modelGiven (layer : Option PromptMetadata) : Option String := layer.bind (·.model)

/-- The configuration of a layer that may be missing. -/
def configGiven (layer : Option PromptMetadata) : Fields := (layer.map (·.config)).getD ∅

/-- The metadata under another model and configuration. -/
def under (m : PromptMetadata) (model : Option String) (config : Fields) : PromptMetadata :=
  { m with model, config }

end PromptMetadata

open PromptMetadata (modelGiven configGiven)

/-- What is given at compile time counts by its model and its configuration. -/
theorem Compiler.withCompileTime_eq (parsed : ParsedPrompt) (given : Option PromptMetadata) :
    withCompileTime parsed given =
      { parsed with
        metadata :=
          parsed.metadata.under (overlayText parsed.metadata.model (modelGiven given))
            (parsed.metadata.config.extend (configGiven given)) } := by
  cases given with
  | none => rfl
  | some m => rfl

/-! ### Resolutions under another model and configuration -/

namespace Resolver

variable {r : Resolver} {m : PromptMetadata} {model : Option String} {config : Fields}

/-- The tools do not depend on model and configuration. -/
theorem withTools_under :
    r.withTools (m.under model config) = (·.under model config) <$> r.withTools m := by
  rw [withTools, withTools, map_bind]
  rfl

/-- The input does not depend on model and configuration. -/
theorem compileInput_under :
    r.compileInput (m.under model config) = (·.under model config) <$> r.compileInput m := by
  have hinput : (m.under model config).input = m.input := rfl
  unfold compileInput
  rw [hinput]
  cases m.input with
  | none => rfl
  | some i =>
    dsimp only
    rw [map_bind]
    rfl

/-- The output does not depend on model and configuration. -/
theorem compileOutput_under :
    r.compileOutput (m.under model config) = (·.under model config) <$> r.compileOutput m := by
  have houtput : (m.under model config).output = m.output := rfl
  unfold compileOutput
  rw [houtput]
  cases m.output with
  | none => rfl
  | some o =>
    dsimp only
    rw [map_bind]
    rfl

/-- Under another model and configuration, the layers differ in these two. -/
theorem merged_under (overrides : Option PromptMetadata) :
    let merged := r.merged (m.under model config) overrides
    merged = (r.merged m overrides).under merged.model merged.config := by
  cases overrides with
  | none => rfl
  | some upper => rfl

/-- Under another model and configuration, a resolution makes the same calls, and what it comes to
differs in these two. -/
theorem resolve_under (overrides : Option PromptMetadata) :
    let merged := r.merged (m.under model config) overrides
    r.resolve (m.under model config) overrides =
      (·.under merged.model merged.config) <$> r.resolve m overrides := by
  intro merged
  have hmerged : merged = (r.merged m overrides).under merged.model merged.config :=
    merged_under overrides
  show (r.withTools merged >>= fun m₁ ↦ r.compileInput m₁ >>= r.compileOutput) = _
  rw [resolve, hmerged, withTools_under, map_bind, bind_map_left]
  congr 1
  funext m₁
  rw [compileInput_under, map_bind, bind_map_left]
  congr 1
  funext m₂
  exact compileOutput_under

/-- The model of the layers is the first that is named, at render time, at compile time, by the
prompt or as the default. -/
theorem model_merged_layers (r : Resolver) (m : PromptMetadata)
    (given options : Option PromptMetadata) (config : Fields) :
    (r.merged (m.under (overlayText m.model (modelGiven given)) config) options).model =
      ([modelGiven options, modelGiven given, m.model].findSome? fun t ↦ t.filter (· ≠ "")).or
        r.defaultModel := by
  rw [model_merged, effectiveModel_eq]
  exact congrArg (fun named : Option String ↦ named.or r.defaultModel)
    (findSome?_overlayText [modelGiven options] m.model (modelGiven given))

/-- Each value of the configuration is that of render time, else of compile time, else the
prompt's, else the one of the model. -/
theorem get?_config_merged_layers (r : Resolver) (m : PromptMetadata)
    (given options : Option PromptMetadata) (model : Option String) (k : String) :
    let merged := r.merged (m.under model (m.config.extend (configGiven given))) options
    merged.config.get? k = ((configGiven options).get? k).or
      (((configGiven given).get? k).or
        ((m.config.get? k).or ((r.configOf merged.model).get? k))) := by
  intro merged
  have hconfig : merged.config =
      ((r.configOf merged.model).extend (m.config.extend (configGiven given))).extend
        (configGiven options) := by
    refine (config_merged ..).trans ?_
    rw [← model_merged]
    rfl
  rw [hconfig, OrderedMap.get?_extend, OrderedMap.get?_extend, OrderedMap.get?_extend,
    Option.or_assoc]

end Resolver

/-! ### Compiling and rendering -/

variable {σ : Type}

/-- Rendering makes the calls of resolving the metadata. -/
theorem CompiledPrompt.calls_render (p : CompiledPrompt σ) (data : RenderData)
    (options : Option PromptMetadata) :
    (p.render data options).calls =
      (p.compiler.resolver.resolve p.parsed.metadata options).calls := by
  rw [render, Traced.calls_bind_of_silent]
  · rfl
  · intro metadata
    rw [Traced.calls_bind_of_silent]
    · rfl
    · intro text
      exact Traced.calls_bind_of_silent fun _ ↦ rfl

/-- A rendered prompt has the metadata that its own resolves to. -/
theorem CompiledPrompt.metadata_of_render {p : CompiledPrompt σ} {data : RenderData}
    {options : Option PromptMetadata} {out : RenderedPrompt}
    (h : (p.render data options).result = .ok out) :
    (p.compiler.resolver.resolve p.parsed.metadata options).result = .ok out.metadata := by
  obtain ⟨metadata, hmetadata, h⟩ := Traced.result_bind_eq_ok_iff.mp h
  obtain ⟨text, -, h⟩ := Traced.result_bind_eq_ok_iff.mp h
  obtain ⟨messages, -, h⟩ := Traced.result_bind_eq_ok_iff.mp h
  cases h
  exact Traced.result_mapError_eq_ok_iff.mp hmetadata

namespace Compiler

/-- A document compiles to its own text and metadata, with the layer of compile time. -/
theorem eq_of_compile {c : Compiler σ} {source : String} {given : Option PromptMetadata}
    {p : CompiledPrompt σ} (h : (c.compile source given).result = .ok p) :
    p.compiler = c ∧ p.parsed = withCompileTime (c.parse source) given := by
  obtain ⟨setup, -, hp⟩ := Traced.result_bind_eq_ok_iff.mp h
  cases hp
  exact ⟨rfl, rfl⟩

/-- The model and the configuration of a rendered prompt are decided layer by layer: by what is
given at render time, at compile time, by the front matter, and last by the defaults. All else is
what the front matter alone resolves to, with the same calls. So two arguments that agree on model
and configuration give the same compiled prompt, or fail alike, and the same renders. -/
theorem compile_render_layers (c : Compiler σ) (source : String) (given : Option PromptMetadata)
    (data : RenderData) (options : Option PromptMetadata) :
    let front := (c.parse source).metadata
    let model := ([modelGiven options, modelGiven given, front.model].findSome? fun t ↦
      t.filter (· ≠ "")).or c.resolver.defaultModel
    (∀ p out, (c.compile source given).result = .ok p → (p.render data options).result = .ok out →
      out.metadata.model = model ∧
      (∀ k, out.metadata.config.get? k = ((configGiven options).get? k).or
        (((configGiven given).get? k).or
          ((front.config.get? k).or ((c.resolver.configOf model).get? k)))) ∧
      ∃ plain, (c.resolver.resolve front options).result = .ok plain ∧
        out.metadata = plain.under out.metadata.model out.metadata.config ∧
        (p.render data options).calls = (c.resolver.resolve front options).calls) ∧
    ∀ other, modelGiven other = modelGiven given → configGiven other = configGiven given →
      c.compile source other = c.compile source given ∧
      (c.compile source other >>= (·.render data options)) =
        (c.compile source given >>= (·.render data options)) := by
  intro front model
  constructor
  · intro p out hcompile hrender
    obtain ⟨hcompiler, hparsed⟩ := eq_of_compile hcompile
    have hcalls := p.calls_render data options
    have hresolve := CompiledPrompt.metadata_of_render hrender
    rw [hcompiler, hparsed, withCompileTime_eq, Resolver.resolve_under] at hcalls hresolve
    rw [Traced.calls_map] at hcalls
    obtain ⟨plain, hplain, hout⟩ := Traced.result_map_eq_ok_iff.mp hresolve
    have hmodel : out.metadata.model = model := by
      rw [← hout]
      exact Resolver.model_merged_layers c.resolver front given options _
    refine ⟨hmodel, ?_, plain, hplain, ?_, hcalls⟩
    · intro k
      rw [← hmodel, ← hout]
      exact Resolver.get?_config_merged_layers c.resolver front given options _ k
    · rw [← hout]
      rfl
  · intro other hmodel hconfig
    have hcompile : c.compile source other = c.compile source given := by
      rw [compile, compile, withCompileTime_eq, withCompileTime_eq, hmodel, hconfig]
    exact ⟨hcompile, by rw [hcompile]⟩

/-- Four layers with a value each that no higher layer has: the model given at compile time is empty
and does not count, and the name given there does not either. -/
theorem compile_render_layers_four :
    let c : Compiler (List Registration) :=
      { engine := verbatim
        resolver :=
          { modelConfigs := .ofList [("front", .ofList [("a", .ofNat 1), ("b", .ofNat 1)])] } }
    let source := "---\nmodel: front\nconfig:\n  b: 2\n  c: 2\n---\nHi"
    let given : PromptMetadata :=
      { name := some "given", model := some ""
        config := .ofList [("c", .ofNat 3), ("d", .ofNat 3)] }
    let options : PromptMetadata := { config := .ofList [("d", .ofNat 4)] }
    ∃ p out, (c.compile source (some given)).result = .ok p ∧
      (p.render {} (some options)).result = .ok out ∧ out.metadata.name = none ∧
      out.metadata.model = some "front" ∧
      ["a", "b", "c", "d"].map out.metadata.config.get? =
        [some (.ofNat 1), some (.ofNat 2), some (.ofNat 3), some (.ofNat 4)] := by
  intro c source given options
  have hrun : (c.compile source (some given) >>=
      (·.render {} (some options))).result.toOption.isSome = true := by decide +kernel
  obtain ⟨out, hout⟩ := Option.isSome_iff_exists.mp hrun
  obtain ⟨p, hcompile, hrender⟩ :=
    Traced.result_bind_eq_ok_iff.mp (Traced.result_eq_ok_of_toOption hout)
  obtain ⟨hmodel, hconfig, plain, hplain, hunder, -⟩ :=
    (compile_render_layers c source (some given) {} (some options)).1 p out hcompile hrender
  refine ⟨p, out, hcompile, hrender, ?_, ?_, ?_⟩
  · have hname : (c.resolver.resolve (c.parse source).metadata (some options)).result.toOption.map
        (·.name) = some none := by decide +kernel
    rw [hplain] at hname
    rw [hunder]
    exact Option.some.inj hname
  · rw [hmodel]
    decide +kernel
  · simp only [List.map_cons, List.map_nil, hconfig]
    decide +kernel

end Compiler

end PromptDoc
