import PromptDoc.Metadata.Basic

/-!
# Laying metadata over metadata

`merge` lays a second layer over a first. What the second layer leaves empty stays as it is;
configurations merge key by key, inputs and outputs field by field, and everything else is replaced
as a whole.
-/

namespace PromptDoc

/-- The upper value if it is given. -/
def overlay {α : Type} (lower upper : Option α) : Option α := upper.or lower

/-- The upper text if it is given and not empty. -/
def overlayText (lower upper : Option String) : Option String :=
  (upper.filter fun s ↦ !s.isEmpty).or lower

/-- The upper number if it is given and not zero. -/
def overlayTurns (lower upper : Option UInt32) : Option UInt32 :=
  (upper.filter fun n ↦ n ≠ 0).or lower

/-- The upper list if it is not empty. -/
def overlayList {α : Type} (lower upper : List α) : List α :=
  if upper.isEmpty then lower else upper

/-- Lay one input over another. An empty one changes nothing, not even an absent input. -/
def PromptInput.overlay (lower upper : Option PromptInput) : Option PromptInput :=
  match upper.filter fun i ↦ !i.isEmpty with
  | none => lower
  | some i =>
    let base := lower.getD {}
    some
      { default := if i.default.isEmpty then base.default else i.default
        schema := PromptDoc.overlay base.schema i.schema }

/-- Lay one output over another. An empty one changes nothing, not even an absent output. -/
def PromptOutput.overlay (lower upper : Option PromptOutput) : Option PromptOutput :=
  match upper.filter fun o ↦ !o.isEmpty with
  | none => lower
  | some o =>
    let base := lower.getD {}
    some
      { format := overlayText base.format o.format
        schema := PromptDoc.overlay base.schema o.schema }

/-- Lay `upper` over `lower`. Specification §4.3, the merge order. -/
def PromptMetadata.merge (lower upper : PromptMetadata) : PromptMetadata where
  name := overlayText lower.name upper.name
  variant := overlayText lower.variant upper.variant
  version := overlayText lower.version upper.version
  description := overlayText lower.description upper.description
  model := overlayText lower.model upper.model
  maxTurns := overlayTurns lower.maxTurns upper.maxTurns
  tools := overlayList lower.tools upper.tools
  toolDefs := overlayList lower.toolDefs upper.toolDefs
  config := lower.config.extend upper.config
  input := PromptInput.overlay lower.input upper.input
  output := PromptOutput.overlay lower.output upper.output
  raw := overlay lower.raw upper.raw
  ext := if upper.ext.isEmpty then lower.ext else upper.ext
  metadata := overlay lower.metadata upper.metadata

/-! ### Inputs and outputs through what they say -/

section Input

variable {lower upper : Option PromptInput}

/-- An input is there as soon as one that says something is laid over. -/
theorem PromptInput.isSome_overlay :
    (PromptInput.overlay lower upper).isSome ↔ lower.isSome ∨ ∃ i ∈ upper, i ≠ {} := by
  cases upper with
  | none => simp [PromptInput.overlay]
  | some i =>
    have hsays : i ≠ {} ↔ i.isEmpty = false := by rw [ne_eq, ← isEmpty_iff, Bool.not_eq_true]
    cases hi : i.isEmpty <;> simp [PromptInput.overlay, Option.filter_some, hi, hsays]

/-- An input laid over another, where an absent one says nothing. -/
theorem PromptInput.getD_overlay : (PromptInput.overlay lower upper).getD {} =
    { default :=
        if (upper.getD {}).default.isEmpty then (lower.getD {}).default else (upper.getD {}).default
      schema := PromptDoc.overlay (lower.getD {}).schema (upper.getD {}).schema } := by
  cases upper with
  | none => rfl
  | some i =>
    cases hi : i.isEmpty with
    | true =>
      rw [isEmpty_iff.mp hi]
      rfl
    | false => simp [PromptInput.overlay, Option.filter_some, hi]

end Input

section Output

variable {lower upper : Option PromptOutput}

/-- An output is there as soon as one that says something is laid over. -/
theorem PromptOutput.isSome_overlay :
    (PromptOutput.overlay lower upper).isSome ↔ lower.isSome ∨ ∃ o ∈ upper, o ≠ {} := by
  cases upper with
  | none => simp [PromptOutput.overlay]
  | some o =>
    have hsays : o ≠ {} ↔ o.isEmpty = false := by rw [ne_eq, ← isEmpty_iff, Bool.not_eq_true]
    cases ho : o.isEmpty <;> simp [PromptOutput.overlay, Option.filter_some, ho, hsays]

/-- An output laid over another, where an absent one says nothing. -/
theorem PromptOutput.getD_overlay : (PromptOutput.overlay lower upper).getD {} =
    { format := overlayText (lower.getD {}).format (upper.getD {}).format
      schema := PromptDoc.overlay (lower.getD {}).schema (upper.getD {}).schema } := by
  cases upper with
  | none => rfl
  | some o =>
    cases ho : o.isEmpty with
    | true =>
      rw [isEmpty_iff.mp ho]
      rfl
    | false => simp [PromptOutput.overlay, Option.filter_some, ho]

end Output

end PromptDoc
