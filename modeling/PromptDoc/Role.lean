import PromptDoc.Json.Codec

/-!
# Roles

The four roles a message can have, their names, and the error for any other name.
-/

namespace PromptDoc

/-- Who speaks in a message. Specification §3 (Message). -/
inductive Role where
  | user
  | model
  | system
  | tool
  deriving DecidableEq, Repr

/-- A name that is no role's. -/
structure UnknownRole where
  name : String
  deriving DecidableEq

/-- The error's text. -/
def UnknownRole.message (e : UnknownRole) : String := "unknown role '" ++ e.name ++ "'"

namespace Role

/-- The name of a role. -/
def name : Role → String
  | user => "user"
  | model => "model"
  | system => "system"
  | tool => "tool"

/-- The role of a name. Specification §10.7. -/
def ofName (name : String) : Except UnknownRole Role :=
  if name = "user" then .ok .user
  else if name = "model" then .ok .model
  else if name = "system" then .ok .system
  else if name = "tool" then .ok .tool
  else .error ⟨name⟩

/-- A role is written as its name. -/
def toJson (r : Role) : Json.Value := .string r.name

/-- A role is read from its name, which may also be the only key of an object, over `null`. -/
def ofJson? : Json.Value → Option Role
  | .string name => (ofName name).toOption
  | .object [(name, .null)] => (ofName name).toOption
  | _ => none

/-- The name of a role names it. -/
@[simp] theorem ofName_name (r : Role) : ofName r.name = .ok r := by
  cases r <;> simp [ofName, name]

/-- A name is refused when no role has it, and the error is about that name. -/
theorem ofName_eq_error_iff {name : String} {e : UnknownRole} :
    ofName name = .error e ↔ (∀ r : Role, r.name ≠ name) ∧ e = ⟨name⟩ := by
  by_cases h : ∃ r : Role, r.name = name
  · obtain ⟨r, rfl⟩ := h
    rw [ofName_name]
    exact iff_of_false (fun heq ↦ by cases heq) (fun hnone ↦ hnone.1 r rfl)
  · rw [not_exists] at h
    have hfails : ofName name = .error ⟨name⟩ := by
      have huser : name ≠ "user" := Ne.symm (h user)
      have hmodel : name ≠ "model" := Ne.symm (h model)
      have hsystem : name ≠ "system" := Ne.symm (h system)
      have htool : name ≠ "tool" := Ne.symm (h tool)
      rw [ofName, if_neg huser, if_neg hmodel, if_neg hsystem, if_neg htool]
    rw [hfails, Except.error.injEq, eq_comm, iff_and_self]
    exact fun _ ↦ h

/-- A role reads back from what it is written as. -/
@[simp] theorem ofJson?_toJson (r : Role) : ofJson? r.toJson = some r := by
  simp [ofJson?, toJson, Except.toOption]

end Role

end PromptDoc
