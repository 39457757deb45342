import PromptDoc.Proofs.Metadata.Calls

/-!
# The tools of a resolution

Each name of the tools list is looked up in the registry, and if it is not there the callback is
asked, if there is one. Main statement: this fails on the first name that the callback refuses, and
else every name either gives its definition or, for want of a callback, stays a name
(`withTools_accounts`).
-/

namespace PromptDoc.Resolver

/-- The answers of a callback that give no definition, with the errors they lead to. -/
inductive Refuses (ask : Callback ToolDefinition) (name : String) : ResolveError → Prop
  | unknown (h : ask name = .ok none) : Refuses ask name (.unresolvedTool name)
  | empty (h : ask name = .ok (some {})) : Refuses ask name (.unresolvedTool name)
  | failed {reason : String} (h : ask name = .error reason) :
    Refuses ask name (.toolCallback name reason)

/-- The registry lacks a name, and the callback refuses it. -/
def FailsOn (r : Resolver) (name : String) (e : ResolveError) : Prop :=
  r.tools.get? name = none ∧ ∃ ask, r.toolCallback = some ask ∧ Refuses ask name e

/-- The definition of a name: that of the registry, else that of the callback. -/
def definition? (r : Resolver) (name : String) : Option ToolDefinition :=
  (r.tools.get? name).or (r.toolCallback.bind fun ask ↦ (ask name).toOption.join)

variable {r : Resolver} {m : PromptMetadata}

/-! ### One name -/

/-- The answers that lead to an error are those of a callback that refuses. -/
theorem toolError?_eq_some_iff {ask : Callback ToolDefinition} {name : String} {e : ResolveError} :
    toolError? name (ask name) = some e ↔ Refuses ask name e := by
  constructor
  · intro h
    unfold toolError? at h
    split at h
    · next reason hanswer =>
      cases h
      exact .failed hanswer
    · next hanswer =>
      cases h
      exact .unknown hanswer
    · next t hanswer =>
      split at h
      · next hempty =>
        cases h
        rw [ToolDefinition.isEmpty_iff.mp hempty] at hanswer
        exact .empty hanswer
      · cases h
  · intro h
    cases h with
    | unknown hanswer => rw [hanswer, toolError?]
    | empty hanswer => rw [hanswer, toolError?, if_pos (ToolDefinition.isEmpty_iff.mpr rfl)]
    | failed hanswer => rw [hanswer, toolError?]

/-- The errand of a name fails when the resolution fails on the name. -/
theorem error?_tool_eq_some_iff {name : String} {e : ResolveError} :
    r.error? (.tool name) = some e ↔ r.FailsOn name e := by
  rw [error?, FailsOn]
  cases htool : r.tools.get? name with
  | some t => simp
  | none =>
    cases hask : r.toolCallback with
    | none => simp
    | some ask => simp [toolError?_eq_some_iff]

/-- The errand of a name does not fail when the resolution does not fail on it. -/
theorem error?_tool_eq_none_iff {name : String} :
    r.error? (.tool name) = none ↔ ∀ e, ¬ r.FailsOn name e := by
  simp only [Option.eq_none_iff_forall_ne_some, ne_eq, error?_tool_eq_some_iff]

/-- A callback that gives a definition answered with it. -/
theorem eq_of_askTool_eq_ok {ask : Callback ToolDefinition} {name : String} {t : ToolDefinition}
    (h : (askTool ask name).result = .ok t) : ask name = .ok (some t) := by
  unfold askTool Traced.afterCall at h
  dsimp only at h
  split at h
  · cases h
  · cases h
  · next answer hanswer =>
    split at h
    · cases h
    · cases h
      exact hanswer

/-- A callback that does not refuse a name has a definition for it. -/
theorem isSome_definition? {ask : Callback ToolDefinition} {name : String}
    (hask : r.toolCallback = some ask) (h : ∀ e, ¬ r.FailsOn name e) :
    (r.definition? name).isSome = true := by
  rw [definition?, hask, Option.bind_some]
  cases htool : r.tools.get? name with
  | some t => rfl
  | none =>
    have hgood (e : ResolveError) : ¬ Refuses ask name e := fun he ↦ h e ⟨htool, ask, hask, he⟩
    cases hanswer : ask name with
    | error reason => exact absurd (.failed hanswer) (hgood _)
    | ok found =>
      cases found with
      | none => exact absurd (.unknown hanswer) (hgood _)
      | some t => rfl

/-- Without a callback the names that the registry lacks stay names; with one that refuses none of
them no name stays. -/
theorem filter_isNone_definition? {names : List String}
    (h : ∀ name ∈ names, ∀ e, ¬ r.FailsOn name e) :
    (names.filter fun name ↦ (r.definition? name).isNone) =
      if r.toolCallback.isSome then [] else names.filter fun name ↦ (r.tools.get? name).isNone := by
  cases hask : r.toolCallback with
  | none => simp [definition?, hask]
  | some ask =>
    rw [Option.isSome_some, if_pos rfl, List.filter_eq_nil_iff]
    intro name hname
    simpa [Option.isSome_iff_ne_none] using isSome_definition? hask (h name hname)

/-! ### The list of names -/

/-- The names are resolved unless the resolution fails on one, and it fails on the first such. -/
theorem error?_resolveTools (names : List String) :
    (r.resolveTools names).error? = names.findSome? fun name ↦ r.error? (.tool name) := by
  rw [← Traced.error?_course, course_resolveTools, Traced.error?_forM, List.findSome?_map]
  simp only [Function.comp_def, error?_carry]

/-- Resolving the tool names of metadata fails as resolving the list does. -/
theorem error?_withTools :
    (r.withTools m).error? = m.tools.findSome? fun name ↦ r.error? (.tool name) := by
  rw [← error?_resolveTools, ← Traced.error?_course, withTools,
    ← Traced.error?_course (r.resolveTools m.tools)]
  exact congrArg Traced.error? (Traced.course_map _ _)

/-- What the names of a list give: the definitions that there are, and the other names. -/
theorem resolveTools_eq_ok {names : List String} {defs : List ToolDefinition} {left : List String}
    (h : (r.resolveTools names).result = .ok (defs, left)) :
    defs = names.filterMap r.definition? ∧
      left = names.filter fun name ↦ (r.definition? name).isNone := by
  induction names generalizing defs left with
  | nil =>
    cases h
    exact ⟨rfl, rfl⟩
  | cons name rest ih =>
    unfold resolveTools at h
    split at h
    · next t htool =>
      obtain ⟨⟨defs', left'⟩, hrest, h⟩ := Traced.result_bind_eq_ok_iff.mp h
      cases h
      have hname : r.definition? name = some t := by rw [definition?, htool, Option.some_or]
      obtain ⟨rfl, rfl⟩ := ih hrest
      simp [hname]
    · next htool hask =>
      obtain ⟨⟨defs', left'⟩, hrest, h⟩ := Traced.result_bind_eq_ok_iff.mp h
      cases h
      have hname : r.definition? name = none := by rw [definition?, htool, hask]; rfl
      obtain ⟨rfl, rfl⟩ := ih hrest
      simp [hname]
    · next ask htool hask =>
      obtain ⟨t, ht, h⟩ := Traced.result_bind_eq_ok_iff.mp h
      obtain ⟨⟨defs', left'⟩, hrest, h⟩ := Traced.result_bind_eq_ok_iff.mp h
      cases h
      have hname : r.definition? name = some t := by
        rw [definition?, htool, hask, Option.none_or, Option.bind_some, eq_of_askTool_eq_ok ht]
        rfl
      obtain ⟨rfl, rfl⟩ := ih hrest
      simp [hname]

/-- What the tool names of metadata give. -/
theorem withTools_eq_ok {out : PromptMetadata} (hfine : ∀ name ∈ m.tools, ∀ e, ¬ r.FailsOn name e)
    (h : (r.withTools m).result = .ok out) :
    out = { m with
      tools :=
        if r.toolCallback.isSome then []
        else m.tools.filter fun name ↦ (r.tools.get? name).isNone
      toolDefs := m.toolDefs ++ m.tools.filterMap r.definition? } := by
  obtain ⟨defs, left, htools, rfl⟩ := withTools_eq_ok_iff.mp h
  obtain ⟨rfl, rfl⟩ := resolveTools_eq_ok htools
  rw [filter_isNone_definition? hfine]

/-- Resolving the tool names fails on the first name that the resolution fails on, with the error
of that name. If there is none, each name gives the definition of the registry, or without one that
of the callback, once for each time it is listed. Only where there is no callback the names that the
registry lacks stay names, and nothing else changes. -/
theorem withTools_accounts (r : Resolver) (m : PromptMetadata) :
    (∀ e, (r.withTools m).result = .error e ↔
      ∃ before name after, m.tools = before ++ name :: after ∧
        (∀ earlier ∈ before, ∀ e', ¬ r.FailsOn earlier e') ∧ r.FailsOn name e) ∧
    ∀ out, (r.withTools m).result = .ok out ↔
      (∀ name ∈ m.tools, ∀ e, ¬ r.FailsOn name e) ∧
        out = { m with
          tools :=
            if r.toolCallback.isSome then []
            else m.tools.filter fun name ↦ (r.tools.get? name).isNone
          toolDefs := m.toolDefs ++ m.tools.filterMap r.definition? } := by
  constructor
  · intro e
    rw [← Traced.error?_eq_some_iff, error?_withTools, List.findSome?_eq_some_iff]
    simp only [error?_tool_eq_some_iff, error?_tool_eq_none_iff]
    constructor
    · rintro ⟨before, name, after, hsplit, hname, hbefore⟩
      exact ⟨before, name, after, hsplit, hbefore, hname⟩
    · rintro ⟨before, name, after, hsplit, hbefore, hname⟩
      exact ⟨before, name, after, hsplit, hname, hbefore⟩
  · intro out
    have hfails : (∀ name ∈ m.tools, ∀ e, ¬ r.FailsOn name e) ↔ (r.withTools m).error? = none := by
      simp only [error?_withTools, List.findSome?_eq_none_iff, error?_tool_eq_none_iff]
    rw [hfails, Traced.error?_eq_none_iff]
    constructor
    · intro hout
      refine ⟨⟨out, hout⟩, ?_⟩
      exact withTools_eq_ok (hfails.mpr (Traced.error?_eq_none_iff.mpr ⟨out, hout⟩)) hout
    · rintro ⟨⟨out', hout'⟩, rfl⟩
      rw [hout', withTools_eq_ok (hfails.mpr (Traced.error?_eq_none_iff.mpr ⟨out', hout'⟩)) hout']

end PromptDoc.Resolver
