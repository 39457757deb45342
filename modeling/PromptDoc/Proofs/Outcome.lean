import Mathlib.Data.List.Forall2

/-!
# Outcomes of computations in a row

Computations that may fail, taken one after another, succeed when each of them does, and fail as the
first that fails. Main statements: when two computations succeed (`bind_eq_ok_iff`) and when a run
over a list does (`foldlM_cons_eq_ok_iff`, `foldlM_append_eq_ok_iff`), and with which error a run
over a list fails (`foldlM_eq_error_iff`, `mapM_eq_error_iff`).
-/

namespace PromptDoc.Outcome

variable {ε α β σ : Type}

/-- Two computations in a row succeed when both do. -/
theorem bind_eq_ok_iff {r : Except ε α} {f : α → Except ε β} {b : β} :
    r >>= f = .ok b ↔ ∃ a, r = .ok a ∧ f a = .ok b := by
  cases r with
  | error e => simp [bind, Except.bind]
  | ok a => simp [bind, Except.bind]

/-- A function of an outcome. -/
theorem map_eq_ok_iff {r : Except ε α} {f : α → β} {b : β} :
    r.map f = .ok b ↔ ∃ a, r = .ok a ∧ f a = b := by
  cases r with
  | error e => simp [Except.map]
  | ok a => simp [Except.map]

/-- Two computations in a row fail when the first does, or the second behind it. -/
theorem bind_eq_error_iff {r : Except ε α} {f : α → Except ε β} {e : ε} :
    r >>= f = .error e ↔ r = .error e ∨ ∃ a, r = .ok a ∧ f a = .error e := by
  cases r with
  | error e' => simp [bind, Except.bind]
  | ok a => simp [bind, Except.bind]

/-- A function of an outcome does not change how it fails. -/
theorem map_eq_error_iff {r : Except ε α} {f : α → β} {e : ε} :
    r.map f = .error e ↔ r = .error e := by
  cases r with
  | error e' => simp [Except.map]
  | ok a => simp [Except.map]

/-- A run over a list takes its first step and runs over the rest. -/
theorem foldlM_cons_eq_ok_iff {step : σ → α → Except ε σ} {x : α} {xs : List α} {s t : σ} :
    (x :: xs).foldlM step s = .ok t ↔
      ∃ next, step s x = .ok next ∧ xs.foldlM step next = .ok t := by
  rw [List.foldlM_cons, bind_eq_ok_iff]

/-- A run over two lists runs over the one and then over the other. -/
theorem foldlM_append_eq_ok_iff {step : σ → α → Except ε σ} {xs ys : List α} {s t : σ} :
    (xs ++ ys).foldlM step s = .ok t ↔
      ∃ next, xs.foldlM step s = .ok next ∧ ys.foldlM step next = .ok t := by
  rw [List.foldlM_append, bind_eq_ok_iff]

/-- Outcomes for a list are one for its first item and those for the rest. -/
theorem mapM_cons_eq_ok_iff {f : α → Except ε β} {x : α} {xs : List α} {ys : List β} :
    (x :: xs).mapM f = .ok ys ↔
      ∃ y rest, f x = .ok y ∧ xs.mapM f = .ok rest ∧ ys = y :: rest := by
  rw [List.mapM_cons, bind_eq_ok_iff]
  constructor
  · rintro ⟨y, hy, h⟩
    obtain ⟨rest, hrest, heq⟩ := bind_eq_ok_iff.mp h
    exact ⟨y, rest, hy, hrest, (Except.ok.inj heq).symm⟩
  · rintro ⟨y, rest, hy, hrest, rfl⟩
    exact ⟨y, hy, bind_eq_ok_iff.mpr ⟨rest, hrest, rfl⟩⟩

/-- Each outcome for a list is the outcome for an item of it. -/
theorem exists_of_mem_mapM {f : α → Except ε β} {xs : List α} {ys : List β}
    (h : xs.mapM f = .ok ys) {y : β} (hy : y ∈ ys) : ∃ x ∈ xs, f x = .ok y := by
  induction xs generalizing ys with
  | nil =>
    cases h
    cases hy
  | cons x xs ih =>
    obtain ⟨z, rest, hz, hrest, rfl⟩ := mapM_cons_eq_ok_iff.mp h
    rcases List.mem_cons.mp hy with rfl | hmem
    · exact ⟨x, List.mem_cons_self, hz⟩
    · obtain ⟨w, hw, hwy⟩ := ih hrest hmem
      exact ⟨w, List.mem_cons_of_mem x hw, hwy⟩

/-- Two runs over a list go together through `f` when their steps do. -/
theorem map_foldlM {τ : Type} {f : σ → τ} {step : σ → α → Except ε σ} {step' : τ → α → Except ε τ}
    (h : ∀ s x, (step s x).map f = step' (f s) x) (xs : List α) (s : σ) :
    (xs.foldlM step s).map f = xs.foldlM step' (f s) := by
  induction xs generalizing s with
  | nil => rfl
  | cons x xs ih =>
    rw [List.foldlM_cons, List.foldlM_cons, ← h]
    cases step s x with
    | error e => rfl
    | ok next => exact ih next

/-- Outcomes for a list are the outcomes for its items, in order. -/
theorem mapM_eq_ok_iff {f : α → Except ε β} {xs : List α} {ys : List β} :
    xs.mapM f = .ok ys ↔ List.Forall₂ (fun x y ↦ f x = .ok y) xs ys := by
  induction xs generalizing ys with
  | nil =>
    rw [List.mapM_nil, List.forall₂_nil_left_iff]
    exact ⟨fun h ↦ (Except.ok.inj h).symm, fun h ↦ congrArg Except.ok h.symm⟩
  | cons x xs ih =>
    rw [mapM_cons_eq_ok_iff, List.forall₂_cons_left_iff]
    constructor
    · rintro ⟨y, rest, hy, hrest, rfl⟩
      exact ⟨y, rest, hy, ih.mp hrest, rfl⟩
    · rintro ⟨y, rest, hy, hrest, rfl⟩
      exact ⟨y, rest, hy, ih.mpr hrest, rfl⟩

/-! ### The first fault of a list -/

/-- The first item of a list that has a fault has the fault `e`, where `P x e` says that `e` is a
fault of `x`. -/
def FirstFault (P : α → ε → Prop) (xs : List α) (e : ε) : Prop :=
  ∃ before x after, xs = before ++ x :: after ∧ (∀ y ∈ before, ∀ e', ¬ P y e') ∧ P x e

section FirstFault

variable {P Q : α → ε → Prop} {xs : List α} {e : ε}

/-- A list without items has no fault. -/
theorem not_firstFault_nil : ¬ FirstFault P [] e := by
  rintro ⟨before, x, after, h, -⟩
  exact List.append_ne_nil_of_right_ne_nil before (List.cons_ne_nil x after) h.symm

/-- The first fault is one of the first item, or that of the rest if the first item has none. -/
theorem firstFault_cons_iff {x : α} :
    FirstFault P (x :: xs) e ↔ P x e ∨ (∀ e', ¬ P x e') ∧ FirstFault P xs e := by
  constructor
  · rintro ⟨before, y, after, heq, hbefore, hy⟩
    cases before with
    | nil =>
      cases heq
      exact .inl hy
    | cons z before =>
      cases heq
      rw [List.forall_mem_cons] at hbefore
      exact .inr ⟨hbefore.1, before, y, after, rfl, hbefore.2, hy⟩
  · rintro (hx | ⟨hx, before, y, after, rfl, hbefore, hy⟩)
    · exact ⟨[], x, xs, rfl, List.forall_mem_nil _, hx⟩
    · exact ⟨x :: before, y, after, rfl, List.forall_mem_cons.mpr ⟨hx, hbefore⟩, hy⟩

/-- A list has a first fault when one of its items has a fault. -/
theorem exists_firstFault_iff : (∃ e, FirstFault P xs e) ↔ ∃ x ∈ xs, ∃ e, P x e := by
  induction xs with
  | nil => simp [not_firstFault_nil]
  | cons x xs ih =>
    simp only [firstFault_cons_iff, exists_or, exists_and_left, ih, List.exists_mem_cons_iff]
    by_cases hx : ∃ e, P x e
    · exact iff_of_true (.inl hx) (.inl hx)
    · rw [or_iff_right hx, or_iff_right hx, and_iff_right (not_exists.mp hx)]

/-- The first fault depends on what the faults of the items are. -/
theorem firstFault_congr (h : ∀ x ∈ xs, ∀ e, P x e ↔ Q x e) :
    FirstFault P xs e ↔ FirstFault Q xs e := by
  induction xs with
  | nil => exact iff_of_false not_firstFault_nil not_firstFault_nil
  | cons x xs ih =>
    rw [List.forall_mem_cons] at h
    rw [firstFault_cons_iff, firstFault_cons_iff, ih h.2]
    simp only [h.1]

/-- Items without a fault may be left out. -/
theorem firstFault_filter {p : α → Bool} (h : ∀ x ∈ xs, ∀ e, P x e → p x = true) :
    FirstFault P (xs.filter p) e ↔ FirstFault P xs e := by
  induction xs with
  | nil => exact Iff.rfl
  | cons x xs ih =>
    rw [List.forall_mem_cons] at h
    rw [firstFault_cons_iff, List.filter_cons]
    split
    · rw [firstFault_cons_iff, ih h.2]
    · next hp =>
      have hnone : ∀ e', ¬ P x e' := fun e' he ↦ hp (h.1 e' he)
      rw [ih h.2, or_iff_right (hnone e), and_iff_right hnone]

/-- The first fault of what some items give is the first fault of the items, where the faults of an
item are those of what it gives. -/
theorem firstFault_filterMap {P : β → ε → Prop} {f : α → Option β} :
    FirstFault P (xs.filterMap f) e ↔ FirstFault (fun x e ↦ ∃ y, f x = some y ∧ P y e) xs e := by
  induction xs with
  | nil => exact iff_of_false not_firstFault_nil not_firstFault_nil
  | cons x xs ih =>
    rw [firstFault_cons_iff, List.filterMap_cons]
    cases hx : f x with
    | none => simp [ih]
    | some y => simp [firstFault_cons_iff, ih]

/-- A run over a list fails with the first fault of its items, where a step fails with the faults of
its item, whatever the state. -/
theorem foldlM_eq_error_iff {step : σ → α → Except ε σ}
    (h : ∀ s x e, step s x = .error e ↔ P x e) {s : σ} :
    xs.foldlM step s = .error e ↔ FirstFault P xs e := by
  induction xs generalizing s with
  | nil => exact iff_of_false (fun h ↦ by cases h) not_firstFault_nil
  | cons x xs ih =>
    rw [List.foldlM_cons, firstFault_cons_iff]
    simp only [← h s x]
    cases step s x with
    | error e' => simp [bind, Except.bind]
    | ok next => simpa [bind, Except.bind] using ih

/-- Outcomes for a list fail as the first item that fails. -/
theorem mapM_eq_error_iff {f : α → Except ε β} :
    xs.mapM f = .error e ↔ FirstFault (fun x e ↦ f x = .error e) xs e := by
  induction xs with
  | nil => exact iff_of_false (fun h ↦ by cases h) not_firstFault_nil
  | cons x xs ih =>
    rw [List.mapM_cons, firstFault_cons_iff, ← ih]
    cases f x with
    | error e' => simp [bind, Except.bind]
    | ok y =>
      cases xs.mapM f with
      | error e' => simp [bind, Except.bind]
      | ok ys => simp [bind, Except.bind, pure, Except.pure]

end FirstFault

end PromptDoc.Outcome
