import PromptDoc.Engine
import PromptDoc.Store.Memory
import PromptDoc.Traced

/-!
# Loading partials

A loader supplies the partials that are not defined locally. It has something to say about finitely
many names only, so following the references of templates ends, even where they run in circles: each
step either finds a name that is not yet registered or shortens the list of names to look at.
-/

namespace PromptDoc

/-- Supplies the sources of partials by name; an empty source is none. Specification §6 and
§10.7. -/
structure PartialLoader where
  load : String → Except String (Option String)
  /-- All names that a source may be supplied for. -/
  names : List String
  /-- No other name has a source. -/
  complete : ∀ name source, load name = .ok (some source) → source ≠ "" → name ∈ names

namespace PartialLoader

/-- The loader that asks `load` about some names and has nothing for the others. -/
def ofNames (names : List String) (load : String → Except String (Option String)) :
    PartialLoader where
  load name := if name ∈ names then load name else .ok none
  names := names
  complete := by grind

/-- The loader that always fails. -/
def failing (reason : String) : PartialLoader where
  load _ := .error reason
  names := []
  complete := by simp

/-- The loader of a store's partials: of each name the newest version without variant. -/
def ofStore (s : MemoryStore) : PartialLoader :=
  ofNames (s.listPartials.map (·.name)) fun name ↦ .ok ((s.loadPartial name {}).map (·.source))

end PartialLoader

/-- Why partials are not followed to their end. -/
inductive PartialError where
  /-- The loader failed on a name. -/
  | load (name reason : String)
  /-- A partial was not registered. -/
  | setup (error : SetupError)
  deriving DecidableEq

namespace Setup

variable {σ : Type}

/-- How many names of a loader have no partial registered. -/
def missing (s : Setup σ) (l : PartialLoader) : Nat :=
  l.names.countP fun name ↦ !s.hasPartial name

private theorem missing_lt {e : Engine σ} {s t : Setup σ} {l : PartialLoader}
    {name source : String} (hnew : ¬ s.hasPartial name) (hname : name ∈ l.names)
    (h : s.add e (.partialText name source) = .ok t) : t.missing l < s.missing l := by
  unfold missing
  have hsub : ∀ ns : List String, ∀ x ∈ ns,
      (!t.hasPartial x) = true → (!s.hasPartial x) = true := by
    intro ns x _ hx
    rw [hasPartial_add_partialText h] at hx
    simp_all
  obtain ⟨before, after, hsplit⟩ := List.append_of_mem hname
  rw [hsplit]
  simp only [List.countP_append, List.countP_cons]
  have h1 := List.countP_mono_left (hsub before)
  have h2 := List.countP_mono_left (hsub after)
  have ht : t.hasPartial name = true := by simp [hasPartial_add_partialText h]
  simp only [ht, hnew]
  simp
  omega

/-- Register the partials under some names that are not registered yet and have a source, each
followed by those that its source refers to. Specification §10.6. -/
def follow (e : Engine σ) (l : PartialLoader) (pending : List String) (s : Setup σ) :
    Traced PartialError (Setup σ) :=
  match pending with
  | [] => pure s
  | name :: rest =>
    if hnew : s.hasPartial name then follow e l rest s
    else
      .afterCall (.partialText name) <|
        match hload : l.load name with
        | .error reason => throw (.load name reason)
        | .ok none => follow e l rest s
        | .ok (some source) =>
          if hsource : source = "" then follow e l rest s
          else
            match hadd : s.add e (.partialText name source) with
            | .error error => throw (.setup error)
            | .ok next =>
              have := missing_lt hnew (l.complete name source hload hsource) hadd
              follow e l (e.references source ++ rest) next
termination_by (s.missing l, pending.length)

end Setup

end PromptDoc
