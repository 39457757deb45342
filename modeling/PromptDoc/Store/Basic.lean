import PromptDoc.Json.Codec
import PromptDoc.Map.Sorted

/-!
# Prompt stores

Prompts and partials by name, variant and version, with their sources. The newest of several
versions is the greatest if all of them are numeric, else the one saved last.
-/

namespace PromptDoc

open Json

/-- What a prompt or a partial is known by. Specification §10.7. -/
structure PromptRef where
  name : String
  variant : Option String := none
  version : Option String := none
  deriving DecidableEq

/-- A prompt or a partial with its source. Specification §10.7. -/
structure PromptData where
  ref : PromptRef
  source : String
  deriving DecidableEq

/-- Which variant and version to load. -/
structure LoadOptions where
  variant : Option String := none
  version : Option String := none
  deriving DecidableEq

namespace PromptRef

/-- References are ordered by name, then variant, then version; none comes before some. -/
def order : PromptRef → PromptRef → Ordering :=
  compareLex (compareOn name) (compareLex (compareOn variant) (compareOn version))

instance : Ord PromptRef := ⟨order⟩

instance : Std.TransOrd PromptRef :=
  inferInstanceAs (Std.TransCmp
    (compareLex (compareOn name) (compareLex (compareOn variant) (compareOn version))))

instance : Std.LawfulEqOrd PromptRef where
  eq_of_compare {a b} h := by
    have h : order a b = .eq := h
    simp only [order, compareLex, compareOn, Ordering.then_eq_eq,
      Std.LawfulEqCmp.compare_eq_iff_eq] at h
    cases a; cases b
    simp_all

/-- The entries of the written form. -/
def toEntries (r : PromptRef) : List (String × Value) :=
  entry "name" (.string r.name) ++ entryGiven "variant" (r.variant.map .string) ++
    entryGiven "version" (r.version.map .string)

/-- Read a reference from the entries of an object. -/
def ofEntries? (fields : List (String × Value)) : Option PromptRef := do
  let name ← required? Value.string? "name" fields
  let variant ← optional? Value.string? "variant" fields
  let version ← optional? Value.string? "version" fields
  some ⟨name, variant, version⟩

/-- The written form of a reference. -/
def toJson (r : PromptRef) : Value := .object r.toEntries

/-- Read a reference. -/
def ofJson? (v : Value) : Option PromptRef :=
  (record? ["name", "variant", "version"] v).bind ofEntries?

end PromptRef

/-- The written form of a prompt with its source. -/
def PromptData.toJson (p : PromptData) : Value :=
  .object (p.ref.toEntries ++ entry "source" (.string p.source))

/-- Read a prompt with its source. -/
def PromptData.ofJson? (v : Value) : Option PromptData := do
  let fields ← entries? v
  let ref ← PromptRef.ofEntries? fields
  let source ← required? Value.string? "source" fields
  some ⟨ref, source⟩

end PromptDoc
