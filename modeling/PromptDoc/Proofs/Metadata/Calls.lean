import PromptDoc.Proofs.Metadata.Resolution
import PromptDoc.Proofs.Schema.Visits

/-!
# The calls of a resolution

A resolution has errands: the tools of the merged metadata, then the stops in the schema of the
input, then those in the schema of the output. An errand makes a call if the registry has no answer
and there is a callback. Main statement: a resolution does its errands in their order up to the
first that fails, and so calls for what the registries lack and for nothing else (`resolve_calls`).
-/

namespace PromptDoc

open Json Shorthand

/-- Something that a resolution has to see to. -/
inductive Errand where
  /-- Find the definition of a tool. -/
  | tool (name : String)
  /-- Deal with a stop in a schema. -/
  | schema (field : SchemaField) (visit : Visit)
  deriving DecidableEq

/-- The stops in a schema, if there is one. -/
def schemaVisits (schema : Option Value) : List Visit := (schema.map compileVisits).getD []

/-- The errands of metadata, in the order of their turns. -/
def errands (m : PromptMetadata) : List Errand :=
  m.tools.map .tool ++ (schemaVisits m.inputSchema?).map (.schema .input) ++
    (schemaVisits m.outputSchema?).map (.schema .output)

namespace Resolver

/-- The call of an errand: one for a name that is not in the registry, if there is a callback. -/
def call? (r : Resolver) : Errand → Option Call
  | .tool name =>
    if (r.tools.get? name).isNone ∧ r.toolCallback.isSome then some (.tool name) else none
  | .schema _ (.reference name) =>
    if (r.schemas.get? name).isNone ∧ r.schemaCallback.isSome then some (.schema name) else none
  | .schema _ (.fault _) => none

/-- The error that the callback's answer about a tool leads to. -/
def toolError? (name : String) : Except String (Option ToolDefinition) → Option ResolveError
  | .error reason => some (.toolCallback name reason)
  | .ok none => some (.unresolvedTool name)
  | .ok (some t) => if t.isEmpty then some (.unresolvedTool name) else none

/-- The error that the callback's answer about a schema leads to. -/
def schemaError? (name : String) : Except String (Option Schema) → Option SchemaError
  | .error reason => some (.lookup name reason)
  | .ok none => some (.notFound name)
  | .ok (some _) => none

/-- The error of an errand that fails. A tool may stay a name, a schema may not. -/
def error? (r : Resolver) : Errand → Option ResolveError
  | .tool name =>
    match r.tools.get? name, r.toolCallback with
    | none, some ask => toolError? name (ask name)
    | _, _ => none
  | .schema field (.reference name) =>
    match r.schemas.get? name, r.schemaCallback with
    | some _, _ => none
    | none, none => some (.schema field (.notFound name))
    | none, some ask => (schemaError? name (ask name)).map (.schema field)
  | .schema field (.fault e) => some (.schema field e)

/-- An errand as a run of its own. -/
def carry (r : Resolver) (x : Errand) : Traced ResolveError Unit :=
  ⟨(r.call? x).toList, match r.error? x with
    | some e => .error e
    | none => .ok ()⟩

/-- An errand fails with its error. -/
theorem error?_carry (r : Resolver) (x : Errand) : (r.carry x).error? = r.error? x := by
  rw [Traced.error?, carry]
  cases r.error? x with
  | none => rfl
  | some e => rfl

variable {r : Resolver} {m : PromptMetadata}

/-! ### Runs as errands -/

/-- Asking about a tool is an errand. -/
theorem course_askTool {name : String} {ask : Callback ToolDefinition}
    (htool : r.tools.get? name = none) (hask : r.toolCallback = some ask) :
    (askTool ask name).course = r.carry (.tool name) := by
  simp only [carry, call?, error?, htool, hask, askTool]
  cases ask name with
  | error reason => rfl
  | ok found =>
    cases found with
    | none => rfl
    | some t =>
      rw [toolError?]
      dsimp only
      split
      · rfl
      · rfl

/-- A tool that is registered, or that stays a name, makes no call. -/
theorem carry_tool {name : String}
    (h : (r.tools.get? name).isSome ∨ r.toolCallback = none) :
    r.carry (.tool name) = pure () := by
  rw [carry, call?, error?]
  cases htool : r.tools.get? name with
  | some t => rfl
  | none =>
    have hask : r.toolCallback = none := h.resolve_left (by rw [htool]; exact Bool.false_ne_true)
    rw [hask]
    rfl

/-- The tools are found one after another. -/
theorem course_resolveTools (names : List String) :
    (r.resolveTools names).course = forM (names.map .tool) r.carry := by
  induction names with
  | nil => rfl
  | cons name rest ih =>
    rw [resolveTools, List.map_cons, List.forM_cons, ← ih]
    cases htool : r.tools.get? name with
    | some t =>
      rw [carry_tool (.inl (by rw [htool]; rfl)), pure_bind]
      exact Traced.course_map _ _
    | none =>
      cases hask : r.toolCallback with
      | none =>
        rw [carry_tool (.inr hask), pure_bind]
        exact Traced.course_map _ _
      | some ask =>
        rw [← course_askTool htool hask]
        exact Traced.course_bind fun t _ ↦ Traced.course_map _ _

/-- A stop in a schema is an errand. -/
theorem mapError_meet (field : SchemaField) (visit : Visit) :
    (meet (some r.lookupSchema) visit).mapError (.schema field) =
      r.carry (.schema field visit) := by
  cases visit with
  | fault e => rfl
  | reference name =>
    rw [meet, named, lookupSchema, carry, call?, error?]
    cases r.schemas.get? name with
    | some s => rfl
    | none =>
      cases r.schemaCallback with
      | none => rfl
      | some ask =>
        dsimp only
        cases ask name with
        | error reason => rfl
        | ok found =>
          cases found with
          | none => rfl
          | some s => rfl

/-- A schema is compiled stop by stop. -/
theorem course_compileSchema (field : SchemaField) (schema : Option Value) :
    (r.compileSchema field schema).course =
      forM ((schemaVisits schema).map (.schema field)) r.carry := by
  cases schema with
  | none => rfl
  | some node =>
    have hmap : r.compileSchema field (some node) = Option.map Schema.toJson <$>
        (compile (some r.lookupSchema) node).mapError (.schema field) := rfl
    rw [hmap, Traced.course_map, Traced.course_mapError, course_compile, Traced.mapError_forM,
      List.forM_map]
    simp only [mapError_meet]
    rfl

/-- Compiling the input deals with its schema. -/
theorem course_compileInput :
    (r.compileInput m).course =
      forM ((schemaVisits m.inputSchema?).map (.schema .input)) r.carry := by
  unfold compileInput PromptMetadata.inputSchema?
  cases m.input with
  | none => rfl
  | some i => exact (Traced.course_map _ _).trans (course_compileSchema .input i.schema)

/-- Compiling the output deals with its schema. -/
theorem course_compileOutput :
    (r.compileOutput m).course =
      forM ((schemaVisits m.outputSchema?).map (.schema .output)) r.carry := by
  unfold compileOutput PromptMetadata.outputSchema?
  cases m.output with
  | none => rfl
  | some o => exact (Traced.course_map _ _).trans (course_compileSchema .output o.schema)

/-- A resolution does the errands of the merged metadata. -/
theorem course_resolve (parsed : PromptMetadata) (overrides : Option PromptMetadata) :
    (r.resolve parsed overrides).course = forM (errands (r.merged parsed overrides)) r.carry := by
  rw [resolve, errands, List.append_assoc, List.forM_append, List.forM_append]
  generalize r.merged parsed overrides = m
  have htools : (r.withTools m).course = forM (m.tools.map .tool) r.carry := by
    rw [withTools, ← course_resolveTools]
    exact Traced.course_map _ _
  rw [← htools]
  -- The schemas are those of the merged metadata, as no earlier step changes them.
  refine Traced.course_bind fun m₁ hm₁ ↦ ?_
  have hschemas : m₁.inputSchema? = m.inputSchema? ∧ m₁.outputSchema? = m.outputSchema? := by
    obtain ⟨defs, left, -, rfl⟩ := withTools_eq_ok_iff.mp hm₁
    exact ⟨rfl, rfl⟩
  rw [← hschemas.1, ← hschemas.2, ← course_compileInput]
  refine Traced.course_bind fun m₂ hm₂ ↦ ?_
  have hschema : m₂.outputSchema? = m₁.outputSchema? := by
    obtain ⟨input, -, rfl⟩ := compileInput_eq_ok_iff.mp hm₂
    rfl
  rw [← hschema]
  exact course_compileOutput

/-! ### Calls -/

/-- A call for what the registries lack. -/
def Lacks (r : Resolver) : Call → Prop
  | .tool name => r.tools.get? name = none
  | .schema name => r.schemas.get? name = none
  | .partialText _ => False

/-- A call that got an answer which the resolution goes on with. -/
def Answered (r : Resolver) : Call → Prop
  | .tool name => ∃ ask t, r.toolCallback = some ask ∧ ask name = .ok (some t) ∧ t.isEmpty = false
  | .schema name => ∃ ask s, r.schemaCallback = some ask ∧ ask name = .ok (some s)
  | .partialText _ => False

/-- An errand that makes a call and does not fail was answered. -/
theorem answered_of_call? {x : Errand} {call : Call} (hcall : r.call? x = some call)
    (herror : r.error? x = none) : r.Answered call := by
  cases x with
  | tool name =>
    rw [call?, Option.ite_none_right_eq_some] at hcall
    obtain ⟨⟨hnone, hsome⟩, ⟨⟩⟩ := hcall
    obtain ⟨ask, hask⟩ := Option.isSome_iff_exists.mp hsome
    rw [error?, Option.isNone_iff_eq_none.mp hnone, hask] at herror
    dsimp only at herror
    unfold toolError? at herror
    split at herror
    · cases herror
    · cases herror
    · next t hanswer =>
      refine ⟨ask, t, hask, hanswer, ?_⟩
      split at herror
      · cases herror
      · next ht => exact Bool.eq_false_iff.mpr ht
  | schema field visit =>
    cases visit with
    | fault e => cases hcall
    | reference name =>
      rw [call?, Option.ite_none_right_eq_some] at hcall
      obtain ⟨⟨hnone, hsome⟩, ⟨⟩⟩ := hcall
      obtain ⟨ask, hask⟩ := Option.isSome_iff_exists.mp hsome
      rw [error?, Option.isNone_iff_eq_none.mp hnone, hask] at herror
      dsimp only at herror
      rw [Option.map_eq_none_iff] at herror
      unfold schemaError? at herror
      split at herror
      · cases herror
      · cases herror
      · next s hanswer => exact ⟨ask, s, hask, hanswer⟩

/-- An errand calls for what the registries lack. -/
theorem lacks_of_call? {x : Errand} {call : Call} (h : r.call? x = some call) : r.Lacks call := by
  cases x with
  | tool name =>
    rw [call?, Option.ite_none_right_eq_some] at h
    obtain ⟨⟨hnone, -⟩, ⟨⟩⟩ := h
    exact Option.isNone_iff_eq_none.mp hnone
  | schema field visit =>
    cases visit with
    | fault e => cases h
    | reference name =>
      rw [call?, Option.ite_none_right_eq_some] at h
      obtain ⟨⟨hnone, -⟩, ⟨⟩⟩ := h
      exact Option.isNone_iff_eq_none.mp hnone

/-- A resolution makes the calls of its errands, up to the first that fails. -/
theorem calls_resolve (parsed : PromptMetadata) (overrides : Option PromptMetadata) :
    (r.resolve parsed overrides).calls =
      (upTo (fun x ↦ (r.error? x).isSome) (errands (r.merged parsed overrides))).filterMap
        r.call? := by
  rw [← Traced.calls_course, course_resolve, Traced.calls_forM]
  simp only [error?_carry]
  exact (List.filterMap_eq_flatMap_toList _ _).symm

/-- A resolution fails with the error of the first errand that fails. -/
theorem error?_resolve (parsed : PromptMetadata) (overrides : Option PromptMetadata) :
    (r.resolve parsed overrides).error? =
      (errands (r.merged parsed overrides)).findSome? r.error? := by
  rw [← Traced.error?_course, course_resolve, Traced.error?_forM]
  simp only [error?_carry]

/-- A resolution calls for what the registries lack. -/
theorem lacks_of_mem_calls {parsed : PromptMetadata} {overrides : Option PromptMetadata}
    {call : Call} (h : call ∈ (r.resolve parsed overrides).calls) : r.Lacks call := by
  rw [calls_resolve, List.mem_filterMap] at h
  obtain ⟨x, -, hx⟩ := h
  exact lacks_of_call? hx

/-- Of the calls of a resolution, only the last may be left without an answer. -/
theorem answered_of_mem_dropLast_calls {parsed : PromptMetadata}
    {overrides : Option PromptMetadata} {call : Call}
    (h : call ∈ (r.resolve parsed overrides).calls.dropLast) : r.Answered call := by
  rw [calls_resolve] at h
  obtain ⟨x, hx, hcall⟩ := exists_of_mem_dropLast_filterMap h
  have hfine : (r.error? x).isSome = false :=
    fails_of_mem_dropLast_upTo (fun x ↦ (r.error? x).isSome) hx
  exact answered_of_call? hcall
    (Option.isNone_iff_eq_none.mp (Option.isSome_eq_false_iff.mp hfine))

/-- Finished JSON Schema is taken without a call. -/
theorem calls_compileSchema_of_finished {field : SchemaField} {entries : List (String × Value)}
    (h : (finished? entries).isSome) :
    (r.compileSchema field (some (.object entries))).calls = [] := by
  rw [← Traced.calls_course, course_compileSchema, schemaVisits, Option.map_some,
    Option.getD_some, compileVisits, if_pos h]
  rfl

/-- A resolution does the errands of the merged metadata in their order: it makes the calls of
these, one each, up to the first that fails, and fails with the error of that one. So no name that
is registered is called for, nothing is called for after a call that was not answered, and finished
JSON Schema makes no calls. -/
theorem resolve_calls (r : Resolver) (parsed : PromptMetadata)
    (overrides : Option PromptMetadata) :
    let run := r.resolve parsed overrides
    let errands := errands (r.merged parsed overrides)
    run.calls = (upTo (fun x ↦ (r.error? x).isSome) errands).filterMap r.call? ∧
      (∀ e, run.result = .error e ↔ errands.findSome? r.error? = some e) ∧
      (∀ call ∈ run.calls, r.Lacks call) ∧
      (∀ call ∈ run.calls.dropLast, r.Answered call) ∧
      ∀ field fields, (finished? fields).isSome →
        (r.compileSchema field (some (.object fields))).calls = [] := by
  intro run errands
  refine ⟨calls_resolve parsed overrides, ?_, ?_, ?_, ?_⟩
  · intro e
    rw [← Traced.error?_eq_some_iff, error?_resolve]
  · intro call hcall
    exact lacks_of_mem_calls hcall
  · intro call hcall
    exact answered_of_mem_dropLast_calls hcall
  · intro field fields hfinished
    exact calls_compileSchema_of_finished hfinished

/-- A tool that is registered and two calls for one that is not; then a list of schemas to look up,
and a name that nobody knows, behind which no call comes. -/
example :
    let r : Resolver :=
      { tools := .ofList [("clock", { name := "clock" })]
        toolCallback := some fun name ↦ .ok (some { name })
        schemaCallback := some fun name ↦
          .ok (if name = "Address" then some (.ofType "string") else none) }
    let schema : Value := .object
      [("home(array)", .string "Address"), ("work", .object [("(*)", .string "Office")]),
        ("other", .string "Address")]
    (r.resolve { tools := ["search", "clock", "search"], input := some { schema } } none).calls =
      [.tool "search", .tool "search", .schema "Address", .schema "Office"] := by
  decide +kernel

end Resolver

end PromptDoc
