import PromptDoc.Proofs.Course
import PromptDoc.Schema.Compile

/-!
# What a compilation meets

The names that a shorthand node refers to and the places that do not compile, in the order of the
document: the entries of a mapping one after another, each with all that is nested in it. Main
statement: a compilation looks up these names in this order and ends at the first place that does
not compile or the first name that is not found (`course_compile`).
-/

namespace PromptDoc.Shorthand

open Json

/-- A stop on the way through a node. -/
inductive Visit where
  /-- A name that is not a scalar type. -/
  | reference (name : String)
  /-- A place that does not compile. -/
  | fault (error : SchemaError)
  deriving DecidableEq

/-- The stops at an entry, from those in its value. The values of an `enum` and what stands under an
unknown annotation are not entered. -/
def keyVisits (key : String) (value : Value) (inner : List Visit) : List Visit :=
  match Key.ofText key with
  | .wildcard => inner
  | .property _ _ none => inner
  | .property _ _ (some note) =>
    if note.name = "array" ∨ note.name = "object" then inner
    else if note.name = "enum" then
      match value with
      | .array _ => []
      | _ => [.fault (.enumValues key)]
    else [.fault (.parenthetical note.name)]

mutual

/-- The stops in a node. -/
def visits : Value → List Visit
  | .string text =>
    let name := (Described.ofText text).name
    if Schema.isScalarType name then [] else [.reference name]
  | .object entries => entryVisits entries
  | node => [.fault (.unexpectedNode node)]

/-- The stops in the entries of a mapping. -/
def entryVisits : List (String × Value) → List Visit
  | [] => []
  | (key, value) :: rest => keyVisits key value (visits value) ++ entryVisits rest

end

/-- The stops in a node that is compiled. There are none in finished JSON Schema. -/
def compileVisits : Value → List Visit
  | .null => []
  | .object entries => if (finished? entries).isSome then [] else entryVisits entries
  | node => visits node

/-- Look a name up, or fail. -/
def meet (lookup : Option SchemaLookup) : Visit → Traced SchemaError Unit
  | .reference name => (named lookup name).course
  | .fault e => throw e

variable {lookup : Option SchemaLookup}

/-- A type text is looked up unless it names a scalar type. -/
theorem course_ofTypeText (text : String) :
    (ofTypeText lookup text).course = forM (visits (.string text)) (meet lookup) := by
  rw [ofTypeText, visits]
  split
  · rfl
  · rw [bind_pure_comp, Traced.course_map, List.forM_cons, List.forM_nil]
    exact (bind_pure _).symm

section Entry

variable {key : String} {value : Value} {inner : List Visit} {compiled : Traced SchemaError Schema}
  (hcompiled : compiled.course = forM inner (meet lookup))

include hcompiled

/-- A property meets what its annotation lets it enter. -/
theorem course_property_annotated {optional : Bool} {note : Described} {name : String}
    (hkey : Key.ofText key = .property name optional (some note)) :
    (property key optional (some note) value compiled).course =
      forM (keyVisits key value inner) (meet lookup) := by
  unfold property keyVisits
  rw [hkey]
  dsimp only
  split
  · next harray =>
    rw [if_pos (.inl harray), bind_pure_comp, Traced.course_map, Traced.course_map, hcompiled]
  · next harray =>
    split
    · next hobject =>
      rw [if_pos (.inr hobject), bind_pure_comp, Traced.course_map, Traced.course_map, hcompiled]
    · next hobject =>
      rw [if_neg (not_or.mpr ⟨harray, hobject⟩)]
      -- From here on the value is not entered: all that counts is whether it is a list.
      split
      · cases value with
        | array values => rfl
        | null => rfl
        | bool b => rfl
        | number n => rfl
        | string s => rfl
        | object fields => rfl
      · rfl

/-- Adding an entry meets the stops at the entry. -/
theorem course_add (d : Draft) :
    (d.add key value compiled).course = forM (keyVisits key value inner) (meet lookup) := by
  unfold Draft.add
  split
  · next hkey =>
    unfold keyVisits
    rw [bind_pure_comp, Traced.course_map, hcompiled, hkey]
  · next name optional parenthetical hkey =>
    rw [bind_pure_comp, Traced.course_map]
    cases parenthetical with
    | none =>
      unfold property keyVisits
      rw [bind_pure_comp, Traced.course_map, hcompiled, hkey]
    | some note => exact course_property_annotated hcompiled hkey

end Entry

mutual

/-- Compiling a node meets the stops in it. -/
theorem course_ofNode : (node : Value) →
    (ofNode lookup node).course = forM (visits node) (meet lookup)
  | .string text => by
    rw [ofNode, course_ofTypeText]
  | .object entries => by
    rw [ofNode, visits, Traced.course_map, course_addAll]
  | .null => rfl
  | .bool _ => rfl
  | .number _ => rfl
  | .array _ => rfl

/-- Adding the entries of a mapping meets the stops in them, whatever was added before. -/
theorem course_addAll : (entries : List (String × Value)) → (d : Draft) →
    (addAll lookup d entries).course = forM (entryVisits entries) (meet lookup)
  | [], d => by
    rw [addAll, entryVisits, Traced.course_pure, List.forM_nil]
  | (key, value) :: rest, d => by
    rw [addAll, entryVisits, List.forM_append, ← course_add (course_ofNode value) d]
    -- The rest meets the same stops with every draft, hence with the one that the entry gives.
    exact Traced.course_bind fun next _ ↦ course_addAll rest next

end

/-- A compilation meets the stops in its node, in their order. -/
theorem course_compile (lookup : Option SchemaLookup) (node : Value) :
    (compile lookup node).course = forM (compileVisits node) (meet lookup) := by
  cases node with
  | null => rfl
  | object entries =>
    rw [compile, compileVisits]
    cases finished? entries with
    | some s => rfl
    | none =>
      dsimp only
      rw [Traced.course_map, course_ofNode, visits]
      rfl
  | string text =>
    show (some <$> ofNode lookup (.string text)).course = forM (visits (.string text)) (meet lookup)
    rw [Traced.course_map, course_ofNode]
  | bool b => rfl
  | number n => rfl
  | array items => rfl

end PromptDoc.Shorthand
