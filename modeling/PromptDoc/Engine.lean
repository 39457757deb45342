import PromptDoc.Json.Value
import PromptDoc.Map.Ordered

/-!
# Template engines

What a prompt compiler asks of a template engine: that helpers and partials can be registered on it,
that it tells which partials a text refers to, and that it renders a body. The compiler itself knows
nothing of template syntax. It prepares an engine step by step and refuses to register a helper or a
partial twice (`Setup.add`).
-/

namespace PromptDoc

open Json

/-- A helper defined by the caller: from its arguments to the text that is put in, or to the text of
its error. -/
abbrev Helper := List Value → Except String String

/-- The helpers that every engine has. Specification §10.5. -/
inductive Builtin where
  | role
  | history
  | placeholder
  | media
  | json
  deriving DecidableEq

namespace Builtin

/-- The name of a built-in helper in templates. -/
def name : Builtin → String
  | role => "role"
  | history => "history"
  | placeholder => "section"
  | media => "media"
  | json => "json"

/-- All built-in helpers. -/
def all : List Builtin := [role, history, placeholder, media, json]

end Builtin

/-- Why an engine fails. -/
inductive TemplateError where
  /-- A text is no template; the name is the partial's or the body's. -/
  | compile (name : String)
  /-- A template does not render. -/
  | render
  deriving DecidableEq

/-- An engine with the state `σ`. Specification §10.5. -/
structure Engine (σ : Type) where
  /-- An engine that nothing is registered on. -/
  fresh : σ
  addHelper : σ → String → Helper → σ
  addBuiltin : σ → Builtin → σ
  addPartial : σ → (name source : String) → Except TemplateError σ
  /-- The names of the partials that a text refers to, in order. -/
  references : String → List String
  /-- Compile the body of a prompt. -/
  setBody : σ → String → Except TemplateError σ
  /-- Render the body with an input and a context. -/
  render : σ → (input context : Fields) → Except TemplateError String

/-- A step that prepares an engine for a prompt. -/
inductive Registration where
  | helper (name : String) (helper : Helper)
  | builtin (builtin : Builtin)
  | partialText (name source : String)
  | body (source : String)

/-- The name of the helper that a step registers. -/
def Registration.helperName? : Registration → Option String
  | helper name _ => some name
  | builtin b => some b.name
  | _ => none

/-- The name of the partial that a step registers. -/
def Registration.partialName? : Registration → Option String
  | partialText name _ => some name
  | _ => none

/-- Take one step on an engine. -/
def Engine.register {σ : Type} (e : Engine σ) (state : σ) : Registration → Except TemplateError σ
  | .helper name helper => .ok (e.addHelper state name helper)
  | .builtin b => .ok (e.addBuiltin state b)
  | .partialText name source => e.addPartial state name source
  | .body source => e.setBody state source

/-- Why a step is not taken. -/
inductive SetupError where
  /-- A helper of the name is registered. -/
  | duplicateHelper (name : String)
  /-- A partial of the name is registered. -/
  | duplicatePartial (name : String)
  /-- The engine refuses the step. -/
  | template (error : TemplateError)
  deriving DecidableEq

/-- An engine that is being prepared, with the steps taken so far in order. Specification §10.6, the
guard against double registration. -/
structure Setup (σ : Type) where
  state : σ
  steps : List Registration := []

namespace Setup

variable {σ : Type}

/-- Whether a helper of a name is registered. -/
def hasHelper (s : Setup σ) (name : String) : Bool :=
  s.steps.any fun r ↦ r.helperName? = some name

/-- Whether a partial of a name is registered. -/
def hasPartial (s : Setup σ) (name : String) : Bool :=
  s.steps.any fun r ↦ r.partialName? = some name

/-- Why a step is not taken, if the name of its helper or partial is taken. -/
def taken? (s : Setup σ) : Registration → Option SetupError
  | .helper name _ => if s.hasHelper name then some (.duplicateHelper name) else none
  | .builtin b => if s.hasHelper b.name then some (.duplicateHelper b.name) else none
  | .partialText name _ => if s.hasPartial name then some (.duplicatePartial name) else none
  | .body _ => none

/-- Take one more step, unless its name is taken or the engine refuses it. -/
def add (e : Engine σ) (s : Setup σ) (r : Registration) : Except SetupError (Setup σ) :=
  match s.taken? r with
  | some error => .error error
  | none => ((e.register s.state r).map fun state ↦ ⟨state, s.steps ++ [r]⟩).mapError .template

/-- Take some steps in order. -/
def addAll (e : Engine σ) (s : Setup σ) (rs : List Registration) : Except SetupError (Setup σ) :=
  rs.foldlM (add e) s

variable {e : Engine σ} {s t : Setup σ} {r : Registration}

/-- A step whose name is free is up to the engine. -/
theorem add_of_free (h : s.taken? r = none) :
    s.add e r =
      ((e.register s.state r).map fun state ↦ ⟨state, s.steps ++ [r]⟩).mapError .template := by
  rw [add, h]

/-- A step is taken when its name is free and the engine accepts it. -/
theorem add_eq_ok_iff :
    s.add e r = .ok t ↔
      s.taken? r = none ∧ e.register s.state r = .ok t.state ∧ t.steps = s.steps ++ [r] := by
  cases t with
  | mk state steps =>
    cases htaken : s.taken? r with
    | some error => simp [add, htaken]
    | none =>
      rw [add_of_free htaken]
      cases e.register s.state r with
      | error error =>
        show Except.error (SetupError.template error) = Except.ok _ ↔ _
        simp
      | ok next =>
        show Except.ok (Setup.mk next (s.steps ++ [r])) = Except.ok _ ↔ _
        simp [eq_comm (a := steps)]

/-- A step that is taken is the last one. -/
theorem steps_add (h : s.add e r = .ok t) : t.steps = s.steps ++ [r] := (add_eq_ok_iff.mp h).2.2

/-- After a partial is registered it is known, and so is every other one that was known. -/
theorem hasPartial_add_partialText {name source : String}
    (h : s.add e (.partialText name source) = .ok t) (x : String) :
    t.hasPartial x = (s.hasPartial x || name = x) := by
  simp [hasPartial, steps_add h, Registration.partialName?]

end Setup

end PromptDoc
