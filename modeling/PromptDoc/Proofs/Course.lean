import PromptDoc.Traced

/-!
# The course of a run

What a traced run asks and how it fails, without the value that it gives. Main statements: the
course of a sequence is the course of its first part followed by one that does not depend on the
first part's value (`course_bind`), and a run over a list makes the calls of its items up to the
first that fails, whose error is its own (`calls_forM`, `error?_forM`).
-/

namespace PromptDoc

/-- The items of a list up to the first that fails, that one included. -/
def upTo {α : Type} (fails : α → Bool) : List α → List α
  | [] => []
  | x :: xs => if fails x then [x] else x :: upTo fails xs

/-- Only the last of these items may fail. -/
theorem fails_of_mem_dropLast_upTo {α : Type} (fails : α → Bool) {xs : List α} {x : α}
    (h : x ∈ (upTo fails xs).dropLast) : fails x = false := by
  induction xs with
  | nil => cases h
  | cons y ys ih =>
    rw [upTo] at h
    split at h
    · cases h
    · next hy =>
      cases hrest : upTo fails ys with
      | nil =>
        rw [hrest] at h
        cases h
      | cons z zs =>
        rw [hrest, List.dropLast_cons_cons, ← hrest, List.mem_cons] at h
        cases h with
        | inl hx => rw [hx, Bool.eq_false_iff.mpr hy]
        | inr hx => exact ih hx

/-- What comes before the last that a list gives is given before the last of the list. -/
theorem exists_of_mem_dropLast_filterMap {α β : Type} {f : α → Option β} {xs : List α} {b : β}
    (h : b ∈ (xs.filterMap f).dropLast) : ∃ x ∈ xs.dropLast, f x = some b := by
  obtain rfl | ⟨init, last, rfl⟩ := xs.eq_nil_or_concat
  · cases h
  · rw [List.concat_eq_append] at h ⊢
    rw [List.dropLast_concat]
    rw [List.filterMap_append, List.filterMap_cons, List.filterMap_nil] at h
    have hmem : b ∈ init.filterMap f := by
      cases hlast : f last with
      | none =>
        rw [hlast, List.append_nil] at h
        exact List.dropLast_subset _ h
      | some c =>
        rw [hlast, List.dropLast_concat] at h
        exact h
    exact List.mem_filterMap.mp hmem

namespace Traced

variable {ε ε' α β : Type}

/-- The error of a run that fails. -/
def error? (t : Traced ε α) : Option ε :=
  match t.result with
  | .error e => some e
  | .ok _ => none

/-- A run without its value. -/
def course (t : Traced ε α) : Traced ε Unit := t >>= fun _ ↦ pure ⟨⟩

/-- A run fails with its error. -/
theorem error?_eq_some_iff {t : Traced ε α} {e : ε} : t.error? = some e ↔ t.result = .error e := by
  rw [error?]
  cases t.result with
  | error e' => simp
  | ok a => simp

/-- A run without an error succeeds. -/
theorem error?_eq_none_iff {t : Traced ε α} : t.error? = none ↔ ∃ a, t.result = .ok a := by
  rw [error?]
  cases t.result with
  | error e => simp
  | ok a => simp

/-- The course of a run has its calls. -/
theorem calls_course (t : Traced ε α) : t.course.calls = t.calls := by
  cases h : t.result with
  | error e => rw [course, bind_of_error h]
  | ok a => rw [course, bind_of_ok h, calls_pure, List.append_nil]

/-- The course of a run fails as the run does. -/
theorem error?_course (t : Traced ε α) : t.course.error? = t.error? := by
  cases h : t.result with
  | error e => rw [course, bind_of_error h, error?, error?, h]
  | ok a => rw [course, bind_of_ok h, error?, error?, h, result_pure]

/-- A run that asks nothing and does not fail. -/
theorem course_pure (a : α) : course (pure a : Traced ε α) = pure ⟨⟩ := rfl

/-- The value of a run has no part in its course. -/
theorem course_map (f : α → β) (t : Traced ε α) : course (f <$> t) = t.course := by
  rw [course, map_eq_pure_bind, bind_assoc]
  rfl

/-- The course of a sequence, where the second part takes the same course after each value that the
first part gives. -/
theorem course_bind {t : Traced ε α} {f : α → Traced ε β} {u : Traced ε Unit}
    (h : ∀ a, t.result = .ok a → (f a).course = u) :
    course (t >>= f) = t.course >>= fun _ ↦ u := by
  rw [course, course, bind_assoc, bind_assoc]
  cases hresult : t.result with
  | error e => rw [bind_of_error hresult, bind_of_error hresult]
  | ok a =>
    rw [bind_of_ok hresult, bind_of_ok hresult, ← h a hresult]
    rfl

/-- A sequence with its error translated. -/
theorem mapError_bind (g : ε → ε') (t : Traced ε α) (f : α → Traced ε β) :
    (t >>= f).mapError g = t.mapError g >>= fun a ↦ (f a).mapError g := by
  cases h : t.result with
  | error e =>
    have hfails : (t.mapError g).result = .error (g e) := by simp only [mapError, h]
    rw [bind_of_error h, bind_of_error hfails]
    rfl
  | ok a =>
    have hgives : (t.mapError g).result = .ok a := by simp only [mapError, h]
    rw [bind_of_ok h, bind_of_ok hgives]
    rfl

/-- The translation of an error has no part in the rest of the course. -/
theorem course_mapError (g : ε → ε') (t : Traced ε α) :
    course (t.mapError g) = t.course.mapError g := by
  rw [course, course, mapError_bind]
  rfl

section Steps

variable (step : α → Traced ε Unit)

/-- A run over a list with its error translated. -/
theorem mapError_forM (g : ε → ε') (xs : List α) :
    (forM xs step).mapError g = forM xs fun x ↦ (step x).mapError g := by
  induction xs with
  | nil => rfl
  | cons x xs ih => rw [List.forM_cons, List.forM_cons, mapError_bind, ih]

/-- A run over a list makes the calls of its items, up to the first that fails. -/
theorem calls_forM (xs : List α) :
    (forM xs step).calls =
      (upTo (fun x ↦ (step x).error?.isSome) xs).flatMap fun x ↦ (step x).calls := by
  induction xs with
  | nil => rfl
  | cons x xs ih =>
    cases h : (step x).result with
    | error e => simp [bind_of_error h, upTo, error?, h]
    | ok a => simp [bind_of_ok h, upTo, error?, h, ih]

/-- A run over a list fails with the error of the first item that fails. -/
theorem error?_forM (xs : List α) :
    (forM xs step).error? = xs.findSome? fun x ↦ (step x).error? := by
  induction xs with
  | nil => rfl
  | cons x xs ih =>
    cases h : (step x).result with
    | error e => simp [bind_of_error h, error?, h]
    | ok a =>
      rw [List.forM_cons, bind_of_ok h, List.findSome?_cons]
      simpa [error?, h] using ih

end Steps

end Traced

end PromptDoc
