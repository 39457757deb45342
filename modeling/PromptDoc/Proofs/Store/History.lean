import Mathlib.Data.List.Induction
import PromptDoc.Proofs.Store.Version
import PromptDoc.Store.Memory

/-!
# A store and its history

What a store in memory holds, said in terms of the operations that were performed on it: a prompt is
live if its last save was not followed by a delete. Main statement: a shelf holds exactly what is
live, each source with the number of saves up to its own (`get?_shelf_after`), so that a later save
has a greater number (`savesThrough_lt`).
-/

namespace PromptDoc

/-- The two shelves of a store. -/
inductive Side
  | prompts
  | partials
  deriving DecidableEq

/-- An operation that changes a store. -/
inductive StoreOp
  /-- Save a prompt or a partial. -/
  | save (side : Side) (p : PromptData)
  /-- Delete a prompt. -/
  | delete (ref : PromptRef)

/-! ## What a history says -/

/-- The `i`-th operation saved the source, and no later one saved the reference again or deleted
it. Partials are never deleted. -/
structure Live (side : Side) (ops : List StoreOp) (i : Nat) (p : PromptData) : Prop where
  saved : ops[i]? = some (.save side p)
  last : ∀ j source, i < j → ops[j]? ≠ some (.save side ⟨p.ref, source⟩)
  kept : side = .prompts → ∀ j, i < j → ops[j]? ≠ some (.delete p.ref)

/-! ## One operation -/

/-- Whether an operation leaves a reference of a side as it is. -/
def StoreOp.Spares (side : Side) (ref : PromptRef) (op : StoreOp) : Prop :=
  (∀ source, op ≠ .save side ⟨ref, source⟩) ∧ (side = .prompts → op ≠ .delete ref)

/-- An operation saves a reference, deletes it, or spares it. -/
theorem StoreOp.spares_or (op : StoreOp) (side : Side) (ref : PromptRef) :
    op.Spares side ref ∨ (∃ source, op = .save side ⟨ref, source⟩) ∨
      side = .prompts ∧ op = .delete ref := by
  by_cases hsave : ∃ source, op = .save side ⟨ref, source⟩
  · exact .inr (.inl hsave)
  · by_cases hdelete : side = .prompts ∧ op = .delete ref
    · exact .inr (.inr hdelete)
    · exact .inl ⟨fun source hop ↦ hsave ⟨source, hop⟩, fun hside hop ↦ hdelete ⟨hside, hop⟩⟩

namespace MemoryStore

/-- The shelf of one side. -/
def shelf (s : MemoryStore) : Side → Shelf
  | .prompts => s.prompts
  | .partials => s.partials

/-- Perform an operation. -/
def step (s : MemoryStore) : StoreOp → MemoryStore
  | .save .prompts p => s.save p
  | .save .partials p => s.savePartial p
  | .delete ref => (s.delete ref).2

/-- The empty store after some operations. -/
def after (ops : List StoreOp) : MemoryStore := ops.foldl step {}

/-- The last of some operations is performed on the store after the others. -/
theorem after_snoc (ops : List StoreOp) (op : StoreOp) :
    after (ops ++ [op]) = (after ops).step op := List.foldl_append ..

/-- A save writes its own side under the next number. -/
theorem get?_shelf_save (s : MemoryStore) (side side' : Side) (p : PromptData) (ref : PromptRef) :
    ((s.step (.save side' p)).shelf side).get? ref =
      if side' = side ∧ ref = p.ref then some ⟨p.source, s.saves + 1⟩
      else (s.shelf side).get? ref := by
  cases side <;> cases side' <;>
    simp [step, shelf, save, savePartial, SortedMap.get?_insert,
      Std.LawfulEqCmp.compare_eq_iff_eq]

/-- A delete takes a prompt away. -/
theorem get?_shelf_delete (s : MemoryStore) (side : Side) (gone ref : PromptRef) :
    ((s.step (.delete gone)).shelf side).get? ref =
      if side = .prompts ∧ ref = gone then none else (s.shelf side).get? ref := by
  cases side <;>
    simp [step, shelf, delete, SortedMap.get?_erase, Std.LawfulEqCmp.compare_eq_iff_eq]

/-- What an operation spares stays as it is. -/
theorem get?_shelf_of_spares {s : MemoryStore} {side : Side} {op : StoreOp} {ref : PromptRef}
    (h : op.Spares side ref) :
    ((s.step op).shelf side).get? ref = (s.shelf side).get? ref := by
  cases op with
  | save side' p =>
    rw [get?_shelf_save, if_neg]
    rintro ⟨rfl, rfl⟩
    exact h.1 p.source rfl
  | delete gone =>
    rw [get?_shelf_delete, if_neg]
    rintro ⟨hside, rfl⟩
    exact h.2 hside rfl

end MemoryStore

/-! ## What is live after one more operation -/

private theorem getElem?_snoc_eq_some_iff {ops : List StoreOp} {op x : StoreOp} {j : Nat} :
    (ops ++ [op])[j]? = some x ↔ j = ops.length ∧ op = x ∨ ops[j]? = some x := by
  by_cases hlt : j < ops.length
  · have hne : j ≠ ops.length := by omega
    simp [List.getElem?_append_left hlt, hne]
  · have hnone : ops[j]? = none := List.getElem?_eq_none (by omega)
    by_cases heq : j = ops.length
    · subst heq
      simp
    · have hlong : (ops ++ [op]).length ≤ j := by
        rw [List.length_append, List.length_singleton]
        omega
      rw [List.getElem?_eq_none hlong, hnone]
      simp [heq]

/-- What is live was saved by one of the operations. -/
theorem Live.lt_length {side : Side} {ops : List StoreOp} {i : Nat} {p : PromptData}
    (h : Live side ops i p) : i < ops.length :=
  (List.getElem?_eq_some_iff.mp h.saved).1

/-- After one more operation, what it saved is live, and what was live and is spared. -/
theorem live_snoc_iff {side : Side} {ops : List StoreOp} {op : StoreOp} {i : Nat} {p : PromptData} :
    Live side (ops ++ [op]) i p ↔
      i = ops.length ∧ op = .save side p ∨ Live side ops i p ∧ op.Spares side p.ref := by
  constructor
  · intro h
    rcases getElem?_snoc_eq_some_iff.mp h.saved with ⟨hi, hop⟩ | hsaved
    · exact .inl ⟨hi, hop⟩
    · have hlt : i < ops.length := (List.getElem?_eq_some_iff.mp hsaved).1
      refine .inr ⟨⟨hsaved, ?_, ?_⟩, ?_, ?_⟩
      · intro j source hj hlater
        exact h.last j source hj (getElem?_snoc_eq_some_iff.mpr (.inr hlater))
      · intro hside j hj hlater
        exact h.kept hside j hj (getElem?_snoc_eq_some_iff.mpr (.inr hlater))
      · intro source hop
        exact h.last _ source hlt (getElem?_snoc_eq_some_iff.mpr (.inl ⟨rfl, hop⟩))
      · intro hside hop
        exact h.kept hside _ hlt (getElem?_snoc_eq_some_iff.mpr (.inl ⟨rfl, hop⟩))
  · rintro (⟨rfl, rfl⟩ | ⟨h, hsave, hdelete⟩)
    · -- nothing stands behind the last operation
      have hnone : ∀ j x, ops.length < j → (ops ++ [.save side p])[j]? ≠ some x := by
        intro j x hj hx
        have hlt := (List.getElem?_eq_some_iff.mp hx).1
        rw [List.length_append, List.length_singleton] at hlt
        omega
      exact ⟨getElem?_snoc_eq_some_iff.mpr (.inl ⟨rfl, rfl⟩), fun j _ hj ↦ hnone j _ hj,
        fun _ j hj ↦ hnone j _ hj⟩
    · refine ⟨getElem?_snoc_eq_some_iff.mpr (.inr h.saved), ?_, ?_⟩
      · intro j source hj hlater
        rcases getElem?_snoc_eq_some_iff.mp hlater with ⟨-, hop⟩ | hlater
        · exact hsave source hop
        · exact h.last j source hj hlater
      · intro hside j hj hlater
        rcases getElem?_snoc_eq_some_iff.mp hlater with ⟨-, hop⟩ | hlater
        · exact hdelete hside hop
        · exact h.kept hside j hj hlater

/-- A reference is live through one save only. -/
theorem Live.unique {side : Side} {ops : List StoreOp} {i j : Nat} {p q : PromptData}
    (hp : Live side ops i p) (hq : Live side ops j q) (href : p.ref = q.ref) : i = j ∧ p = q := by
  have hij : ¬ i < j := fun hlt ↦ hp.last j q.source hlt (by rw [href]; exact hq.saved)
  have hji : ¬ j < i := fun hlt ↦ hq.last i p.source hlt (by rw [← href]; exact hp.saved)
  have heq : i = j := by omega
  subst heq
  have hsame := hp.saved.symm.trans hq.saved
  simp_all

/-! ## The number of a save -/

/-- Whether an operation is a save. -/
def StoreOp.isSave : StoreOp → Bool
  | .save .. => true
  | .delete _ => false

/-- How many saves there are up to the `i`-th operation and with it. -/
def savesThrough (ops : List StoreOp) (i : Nat) : Nat := (ops.take (i + 1)).countP StoreOp.isSave

/-- An operation at the end does not change how many saves came before it. -/
theorem savesThrough_snoc {ops : List StoreOp} {op : StoreOp} {i : Nat} (h : i < ops.length) :
    savesThrough (ops ++ [op]) i = savesThrough ops i := by
  rw [savesThrough, List.take_append_of_le_length (by omega), savesThrough]

/-- A save at the end is numbered one higher than all saves before it. -/
theorem savesThrough_snoc_length (ops : List StoreOp) (side : Side) (p : PromptData) :
    savesThrough (ops ++ [.save side p]) ops.length = ops.countP StoreOp.isSave + 1 := by
  simp [savesThrough, List.take_of_length_le, StoreOp.isSave]

/-- What an operation spares is live after it as it was before, with the same number. -/
theorem exists_live_snoc_iff {side : Side} {ops : List StoreOp} {op : StoreOp} {p : PromptData}
    {n : Nat} (h : op.Spares side p.ref) :
    (∃ i, Live side (ops ++ [op]) i p ∧ n = savesThrough (ops ++ [op]) i) ↔
      ∃ i, Live side ops i p ∧ n = savesThrough ops i := by
  refine exists_congr fun i ↦ ?_
  rw [live_snoc_iff]
  constructor
  · rintro ⟨⟨-, hop⟩ | ⟨hlive, -⟩, hnumber⟩
    · exact absurd hop (h.1 p.source)
    · exact ⟨hlive, by rw [hnumber, savesThrough_snoc hlive.lt_length]⟩
  · rintro ⟨hlive, hnumber⟩
    exact ⟨.inr ⟨hlive, h⟩, by rw [savesThrough_snoc hlive.lt_length, hnumber]⟩

/-- A later save has a greater number. -/
theorem savesThrough_lt {ops : List StoreOp} {i j : Nat} {side : Side} {p : PromptData}
    (hij : i < j) (hsave : ops[j]? = some (.save side p)) :
    savesThrough ops i < savesThrough ops j := by
  have hbefore : savesThrough ops i ≤ (ops.take j).countP StoreOp.isSave :=
    (List.take_prefix_take_left hij).sublist.countP_le
  have hat : savesThrough ops j = (ops.take j).countP StoreOp.isSave + 1 := by
    rw [savesThrough, List.take_add_one, hsave]
    simp [StoreOp.isSave]
  omega

namespace MemoryStore

/-- The counter of a store is the number of its saves. -/
theorem saves_after (ops : List StoreOp) : (after ops).saves = ops.countP StoreOp.isSave := by
  induction ops using List.reverseRecOn with
  | nil => rfl
  | append_singleton ops op ih =>
    rw [after_snoc, List.countP_append]
    cases op with
    | save side p => cases side <;> simp [step, save, savePartial, ih, StoreOp.isSave]
    | delete ref => simp [step, delete, ih, StoreOp.isSave]

/-- A shelf holds exactly what is live, each source under the number of saves up to its own. -/
theorem get?_shelf_after {side : Side} {ops : List StoreOp} {ref : PromptRef} {e : Saved} :
    ((after ops).shelf side).get? ref = some e ↔
      ∃ i, Live side ops i ⟨ref, e.source⟩ ∧ e.number = savesThrough ops i := by
  -- by induction on the last operation: it decides for the reference or spares it
  induction ops using List.reverseRecOn generalizing e with
  | nil =>
    have hempty : ((after []).shelf side).get? ref = none := by cases side <;> rfl
    rw [hempty]
    constructor
    · intro h
      cases h
    · rintro ⟨i, h, -⟩
      exact absurd h.lt_length (Nat.not_lt_zero i)
  | append_singleton ops op ih =>
    rw [after_snoc]
    rcases op.spares_or side ref with hspares | ⟨source, rfl⟩ | ⟨rfl, rfl⟩
    · rw [get?_shelf_of_spares hspares, ih, exists_live_snoc_iff hspares]
    · rw [get?_shelf_save, if_pos ⟨rfl, rfl⟩, saves_after]
      have hnumber := savesThrough_snoc_length ops side ⟨ref, source⟩
      constructor
      · intro h
        cases h
        exact ⟨ops.length, live_snoc_iff.mpr (.inl ⟨rfl, rfl⟩), hnumber.symm⟩
      · rintro ⟨i, hlive, hi⟩
        rcases live_snoc_iff.mp hlive with ⟨rfl, hop⟩ | ⟨-, hspares⟩
        · injection hop with _ hp
          injection hp with _ hsource
          rw [hsource, ← hnumber, ← hi]
        · exact absurd rfl (hspares.1 source)
    · rw [get?_shelf_delete, if_pos ⟨rfl, rfl⟩]
      constructor
      · intro h
        cases h
      · rintro ⟨i, hlive, -⟩
        rcases live_snoc_iff.mp hlive with ⟨-, hop⟩ | ⟨-, hspares⟩
        · cases hop
        · exact absurd rfl (hspares.2 rfl)

end MemoryStore

end PromptDoc
