/-!
# Traced computations

Computations that ask callbacks for tools, schemas and partials by name. A run gives its outcome and
the questions it asked, in order. Main statements: traced computations are a lawful monad, and the
calls of a sequence are the calls of its first part followed by those of the second (`calls_bind`).
-/

namespace PromptDoc

universe u

/-- A question to a callback. -/
inductive Call where
  | tool (name : String)
  | schema (name : String)
  | partialText (name : String)
  deriving DecidableEq

/-- The calls a run made and what it came to. -/
structure Traced (ε : Type) (α : Type u) where
  calls : List Call
  result : Except ε α

namespace Traced

variable {ε : Type} {α β γ : Type u}

/-- A run without calls. -/
def ofExcept (r : Except ε α) : Traced ε α := ⟨[], r⟩

/-- A run that makes one call more, before all others. -/
def afterCall (c : Call) (t : Traced ε α) : Traced ε α := ⟨c :: t.calls, t.result⟩

/-- Run one computation after another, unless the first fails. -/
def andThen (t : Traced ε α) (f : α → Traced ε β) : Traced ε β :=
  match t.result with
  | .error e => ⟨t.calls, .error e⟩
  | .ok a => ⟨t.calls ++ (f a).calls, (f a).result⟩

instance : Monad (Traced ε) where
  pure a := ⟨[], .ok a⟩
  bind := andThen

instance : MonadExceptOf ε (Traced ε) where
  throw e := ⟨[], .error e⟩
  tryCatch t handle :=
    match t.result with
    | .error e => ⟨t.calls ++ (handle e).calls, (handle e).result⟩
    | .ok _ => t

/-- The run with its error translated. -/
def mapError {ε' : Type} (f : ε → ε') (t : Traced ε α) : Traced ε' α :=
  ⟨t.calls, match t.result with
    | .error e => .error (f e)
    | .ok a => .ok a⟩

/-- A value alone makes no calls. -/
@[simp] theorem calls_pure (a : α) : (pure a : Traced ε α).calls = [] := rfl

/-- A value alone is the result. -/
@[simp] theorem result_pure (a : α) : (pure a : Traced ε α).result = .ok a := rfl

/-- The calls of a sequence: those of the second part follow if the first succeeds. -/
theorem calls_bind (t : Traced ε α) (f : α → Traced ε β) :
    (t >>= f).calls =
      match t.result with
      | .error _ => t.calls
      | .ok a => t.calls ++ (f a).calls := by
  show (t.andThen f).calls = _
  unfold andThen
  split <;> simp_all

/-- A sequence whose second part asks nothing. -/
theorem calls_bind_of_silent {t : Traced ε α} {f : α → Traced ε β} (h : ∀ a, (f a).calls = []) :
    (t >>= f).calls = t.calls := by
  rw [calls_bind]
  cases t.result with
  | error e => rfl
  | ok a =>
    dsimp only
    rw [h, List.append_nil]

/-- A function of an outcome asks nothing. -/
theorem calls_map (f : α → β) (t : Traced ε α) : (f <$> t).calls = t.calls :=
  calls_bind_of_silent fun _ ↦ rfl

/-- The outcome of a sequence. -/
theorem result_bind (t : Traced ε α) (f : α → Traced ε β) :
    (t >>= f).result =
      match t.result with
      | .error e => .error e
      | .ok a => (f a).result := by
  show (t.andThen f).result = _
  unfold andThen
  split <;> simp_all

/-- A sequence succeeds when both parts do. -/
theorem result_bind_eq_ok_iff {t : Traced ε α} {f : α → Traced ε β} {b : β} :
    (t >>= f).result = .ok b ↔ ∃ a, t.result = .ok a ∧ (f a).result = .ok b := by
  rw [result_bind]
  cases t.result with
  | error e => simp
  | ok a => simp

/-- A function of an outcome. -/
theorem result_map_eq_ok_iff {f : α → β} {t : Traced ε α} {b : β} :
    (f <$> t).result = .ok b ↔ ∃ a, t.result = .ok a ∧ f a = b := by
  show (t >>= fun a ↦ pure (f a)).result = .ok b ↔ _
  rw [result_bind_eq_ok_iff]
  simp

/-- Translating the error changes no success. -/
theorem result_mapError_eq_ok_iff {ε' : Type} {f : ε → ε'} {t : Traced ε α} {a : α} :
    (t.mapError f).result = .ok a ↔ t.result = .ok a := by
  rw [mapError]
  cases t.result with
  | error e => simp
  | ok b => simp

/-- A run without calls succeeds as its outcome does, under any translation of the error. -/
theorem result_ofExcept_mapError_eq_ok_iff {ε' : Type} {f : ε → ε'} {r : Except ε α} {a : α} :
    (ofExcept (r.mapError f)).result = .ok a ↔ r = .ok a := by
  cases r with
  | error e =>
    show Except.error (f e) = Except.ok a ↔ _
    simp
  | ok b =>
    show Except.ok b = Except.ok a ↔ _
    simp

/-- A run whose outcome has a value succeeds with it. -/
theorem result_eq_ok_of_toOption {t : Traced ε α} {a : α} (h : t.result.toOption = some a) :
    t.result = .ok a := by
  cases hresult : t.result with
  | error e =>
    rw [hresult] at h
    cases h
  | ok b =>
    rw [hresult] at h
    exact congrArg Except.ok (Option.some.inj h)

/-- Runs with equal calls and equal outcomes are equal. -/
theorem ext {s t : Traced ε α} (hc : s.calls = t.calls) (hr : s.result = t.result) : s = t := by
  cases s; cases t; simp_all

/-- A run that fails is not followed. -/
theorem bind_of_error {t : Traced ε α} {e : ε} (h : t.result = .error e) (f : α → Traced ε β) :
    t >>= f = ⟨t.calls, .error e⟩ := by
  apply ext
  · rw [calls_bind, h]
  · rw [result_bind, h]

/-- A run that succeeds is followed by another. -/
theorem bind_of_ok {t : Traced ε α} {a : α} (h : t.result = .ok a) (f : α → Traced ε β) :
    t >>= f = ⟨t.calls ++ (f a).calls, (f a).result⟩ := by
  apply ext
  · rw [calls_bind, h]
  · rw [result_bind, h]

instance : LawfulMonad (Traced ε) := by
  refine .mk' _ ?_ (fun _ _ ↦ rfl) ?_
  · intro α t
    show t >>= (fun a ↦ pure (id a)) = t
    cases h : t.result with
    | error e => rw [bind_of_error h, ← h]
    | ok a => rw [bind_of_ok h, calls_pure, List.append_nil, result_pure, id, ← h]
  · intro α β γ t f g
    cases h : t.result with
    | error e => rw [bind_of_error h, bind_of_error h, bind_of_error rfl]
    | ok a =>
      rw [bind_of_ok h, bind_of_ok h]
      cases hf : (f a).result with
      | error e => rw [bind_of_error hf, bind_of_error rfl]
      | ok b => rw [bind_of_ok hf, bind_of_ok rfl, List.append_assoc]

end Traced

end PromptDoc
