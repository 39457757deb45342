import PromptDoc.Store.Basic
import PromptDoc.Store.Version

/-!
# Stores in memory

A store as a value: saved prompts and partials, each with the number of its save. Saving under a
known reference replaces what was there.
-/

namespace PromptDoc

/-- A saved source and the number of its save. -/
structure Saved where
  source : String
  number : Nat
  deriving DecidableEq

/-- The sources saved under references. -/
abbrev Shelf := SortedMap PromptRef Saved

/-- A store in memory. Specification §10.7. -/
structure MemoryStore where
  prompts : Shelf := ∅
  partials : Shelf := ∅
  /-- How many saves there were. -/
  saves : Nat := 0

/-- The last of the greatest items of a list. -/
def lastMax? {α : Type} (le : α → α → Bool) : List α → Option α
  | [] => none
  | x :: xs => some (xs.foldl (fun best y ↦ if le best y then y else best) x)

namespace Shelf

/-- The entries under a name and variant, and under a version if one is pinned. -/
def candidates (shelf : Shelf) (name : String) (options : LoadOptions) :
    List (PromptRef × Saved) :=
  shelf.entries.filter fun e ↦
    e.1.name = name && e.1.variant = options.variant &&
      (options.version.isNone || e.1.version = options.version)

/-- The numeric version of an entry. -/
def version? (e : PromptRef × Saved) : Option (List Nat) := e.1.version.bind numericVersion?

/-- The newest of some entries: the greatest version if all are numeric, else the last saved.
Specification §10.7. -/
def newest? (es : List (PromptRef × Saved)) : Option (PromptRef × Saved) :=
  if es.all fun e ↦ (version? e).isSome then
    lastMax? (fun a b ↦ versionLe ((version? a).getD []) ((version? b).getD [])) es
  else lastMax? (fun a b ↦ a.2.number ≤ b.2.number) es

/-- Load the newest source under a name. -/
def load (shelf : Shelf) (name : String) (options : LoadOptions) : Option PromptData :=
  (newest? (shelf.candidates name options)).map fun e ↦ ⟨e.1, e.2.source⟩

end Shelf

namespace MemoryStore

/-- Save a prompt. -/
def save (s : MemoryStore) (p : PromptData) : MemoryStore :=
  { s with prompts := s.prompts.insert p.ref ⟨p.source, s.saves + 1⟩, saves := s.saves + 1 }

/-- Save a partial. -/
def savePartial (s : MemoryStore) (p : PromptData) : MemoryStore :=
  { s with partials := s.partials.insert p.ref ⟨p.source, s.saves + 1⟩, saves := s.saves + 1 }

/-- Delete a prompt, and tell whether it was there. -/
def delete (s : MemoryStore) (ref : PromptRef) : Bool × MemoryStore :=
  (s.prompts.contains ref, { s with prompts := s.prompts.erase ref })

/-- The references of all prompts, ascending. -/
def list (s : MemoryStore) : List PromptRef := s.prompts.keys

/-- The references of all partials, ascending. -/
def listPartials (s : MemoryStore) : List PromptRef := s.partials.keys

/-- Load a prompt. -/
def load (s : MemoryStore) (name : String) (options : LoadOptions) : Option PromptData :=
  Shelf.load s.prompts name options

/-- Load a partial. -/
def loadPartial (s : MemoryStore) (name : String) (options : LoadOptions) : Option PromptData :=
  Shelf.load s.partials name options

end MemoryStore

end PromptDoc
