import Mathlib
import PromptDoc.Proofs.Store.History

/-!
# What a store answers

Loads and listings in terms of the history of a store: a load gives the newest of the live prompts
that fit, a listing gives the references of all live prompts. Main statement: after any operations a
store answers so, for prompts and for partials (`answers_after`).
-/

namespace PromptDoc

/-- The reference has a numeric version, with its text and its numbers. -/
structure PromptRef.Numbered (ref : PromptRef) (text : String) (numbers : List Nat) : Prop where
  version_eq : ref.version = some text
  writes : WritesVersion text numbers

/-- References compared by name, then variant, then version; none is below some. -/
def PromptRef.Below (a b : PromptRef) : Prop :=
  a.name < b.name ∨ a.name = b.name ∧
    (a.variant < b.variant ∨ a.variant = b.variant ∧ a.version < b.version)

/-- A live source with the name, exactly the variant, and the version if one is pinned. -/
structure Candidate (side : Side) (ops : List StoreOp) (name : String) (options : LoadOptions)
    (i : Nat) (p : PromptData) : Prop where
  live : Live side ops i p
  name_eq : p.ref.name = name
  variant_eq : p.ref.variant = options.variant
  pinned : ∀ version, options.version = some version → p.ref.version = some version

/-- Every candidate has a numeric version. -/
def AllNumbered (side : Side) (ops : List StoreOp) (name : String) (options : LoadOptions) : Prop :=
  ∀ i p, Candidate side ops name options i p → ∃ text numbers, p.ref.Numbered text numbers

/-- The newest candidate: the one with the greatest numbers if all are numeric, and among equal
numbers with the greatest text; else the one saved last. -/
structure Newest (side : Side) (ops : List StoreOp) (name : String) (options : LoadOptions)
    (i : Nat) (p : PromptData) : Prop where
  candidate : Candidate side ops name options i p
  greatest : AllNumbered side ops name options → ∀ j q, Candidate side ops name options j q →
    ∀ v ns w ms, p.ref.Numbered v ns → q.ref.Numbered w ms →
      ms < ns ∨ ms = ns ∧ (w < v ∨ w = v)
  latest : ¬ AllNumbered side ops name options →
    ∀ j q, Candidate side ops name options j q → j ≤ i

/-- Loads give the newest candidate, if there is one, and a listing is what is live. -/
structure Answers (side : Side) (ops : List StoreOp)
    (load : String → LoadOptions → Option PromptData) (list : List PromptRef) : Prop where
  load_eq_none_iff : ∀ name options,
    load name options = none ↔ ¬ ∃ i p, Candidate side ops name options i p
  load_eq_some_iff : ∀ name options p,
    load name options = some p ↔ ∃ i, Newest side ops name options i p
  mem_list_iff : ∀ ref, ref ∈ list ↔ ∃ i source, Live side ops i ⟨ref, source⟩
  ascending : list.Pairwise PromptRef.Below

/-! ## The order of references -/

private theorem compare_option_eq_lt {a b : Option String} : compare a b = .lt ↔ a < b := by
  cases a with
  | none => cases b <;> simp [compare]
  | some a =>
    cases b with
    | none => simp [compare]
    | some b =>
      rw [Option.some_lt_some]
      exact compare_string_eq_lt

/-- Shelves are kept in this order. -/
theorem PromptRef.compare_eq_lt_iff {a b : PromptRef} : compare a b = .lt ↔ a.Below b := by
  show PromptRef.order a b = .lt ↔ _
  simp [PromptRef.order, compareLex, compareOn, Ordering.then_eq_lt, compare_string_eq_lt,
    compare_option_eq_lt, PromptRef.Below]

/-! ## The last of the greatest -/

/-- There is a last of the greatest unless there is nothing. -/
theorem lastMax?_eq_none_iff {α : Type} {le : α → α → Bool} {xs : List α} :
    lastMax? le xs = none ↔ xs = [] := by
  cases xs <;> simp [lastMax?]

/-- What stands before the chosen item is not above it, and what stands behind it is below it. -/
theorem exists_of_lastMax?_eq_some {α : Type} {le : α → α → Bool} {xs : List α} {x : α}
    (h : lastMax? le xs = some x)
    (htrans : ∀ a b c, le a b = true → le b c = true → le a c = true)
    (htotal : ∀ a b, le a b = false → le b a = true) :
    ∃ before behind, xs = before ++ x :: behind ∧ (∀ y ∈ before, le y x = true) ∧
      ∀ y ∈ behind, le x y = false := by
  cases xs with
  | nil => cases h
  | cons first ys =>
    cases h
    -- the induction is on the last item, which the fold looks at last
    induction ys using List.reverseRecOn with
    | nil => exact ⟨[], [], rfl, by simp, by simp⟩
    | append_singleton ys y ih =>
      rw [List.foldl_append, List.foldl_cons, List.foldl_nil]
      generalize ys.foldl (fun best y ↦ if le best y then y else best) first = best at ih
      obtain ⟨before, behind, hys, hbefore, hbehind⟩ := ih
      rw [← List.cons_append, hys]
      by_cases hy : le best y = true
      · rw [if_pos hy]
        refine ⟨before ++ best :: behind, [], rfl, ?_, by simp⟩
        intro z hz
        rcases List.mem_append.mp hz with hz | hz
        · exact htrans _ _ _ (hbefore z hz) hy
        · rcases List.mem_cons.mp hz with rfl | hz
          · exact hy
          · exact htrans _ _ _ (htotal _ _ (hbehind z hz)) hy
      · rw [if_neg hy]
        refine ⟨before, behind ++ [y], by simp, hbefore, ?_⟩
        intro z hz
        rcases List.mem_append.mp hz with hz | hz
        · exact hbehind z hz
        · rw [List.mem_singleton.mp hz]
          simpa using hy

namespace Shelf

/-- An entry has a numeric version if its reference has a version that is written in numbers. -/
theorem version?_eq_some_iff {e : PromptRef × Saved} {ns : List Nat} :
    version? e = some ns ↔ ∃ v, e.1.Numbered v ns := by
  simp only [version?, Option.bind_eq_some_iff, numericVersion?_eq_some_iff]
  exact exists_congr fun v ↦ ⟨fun h ↦ ⟨h.1, h.2⟩, fun h ↦ ⟨h.version_eq, h.writes⟩⟩

/-- There is a newest entry unless there are none. -/
theorem newest?_eq_none_iff {es : List (PromptRef × Saved)} : newest? es = none ↔ es = [] := by
  unfold newest?
  split <;> exact lastMax?_eq_none_iff

/-- Of ascending entries with numeric versions, the newest has the greatest numbers, and the others
with its numbers are below it. -/
theorem numbers_le_of_newest? {es : List (PromptRef × Saved)} {e : PromptRef × Saved}
    (hascending : es.Pairwise fun a b ↦ a.1.Below b.1)
    (hall : es.all (fun e ↦ (version? e).isSome) = true) (h : newest? es = some e) :
    e ∈ es ∧ ∀ y ∈ es, ∀ v ns w ms, e.1.Numbered v ns → y.1.Numbered w ms →
      ms < ns ∨ ms = ns ∧ (y = e ∨ y.1.Below e.1) := by
  rw [newest?, if_pos hall] at h
  obtain ⟨before, behind, rfl, hbefore, hbehind⟩ := exists_of_lastMax?_eq_some h
    (fun a b c hab hbc ↦ versionLe_trans hab hbc)
    (fun a b hab ↦ versionLe_iff.mpr (.inl (versionLe_eq_false_iff.mp hab)))
  refine ⟨by simp, fun y hy v ns w ms hv hw ↦ ?_⟩
  have he : version? e = some ns := version?_eq_some_iff.mpr ⟨v, hv⟩
  have hy' : version? y = some ms := version?_eq_some_iff.mpr ⟨w, hw⟩
  rcases List.mem_append.mp hy with hy | hy
  · have hle := hbefore y hy
    rw [he, hy', Option.getD_some, Option.getD_some, versionLe_iff] at hle
    have hbelow : y.1.Below e.1 :=
      (List.pairwise_append.mp hascending).2.2 y hy e List.mem_cons_self
    exact hle.imp_right fun heq ↦ ⟨heq, .inr hbelow⟩
  · rcases List.mem_cons.mp hy with rfl | hy
    · exact .inr ⟨Option.some.inj (hy'.symm.trans he), .inl rfl⟩
    · have hlt := hbehind y hy
      rw [he, hy', Option.getD_some, Option.getD_some, versionLe_eq_false_iff] at hlt
      exact .inl hlt

/-- Of entries that do not all have numeric versions, the newest has the greatest number. -/
theorem number_le_of_newest? {es : List (PromptRef × Saved)} {e : PromptRef × Saved}
    (hall : ¬ es.all (fun e ↦ (version? e).isSome) = true) (h : newest? es = some e) :
    e ∈ es ∧ ∀ y ∈ es, y.2.number ≤ e.2.number := by
  rw [newest?, if_neg hall] at h
  obtain ⟨before, behind, rfl, hbefore, hbehind⟩ := exists_of_lastMax?_eq_some h
    (fun a b c hab hbc ↦ by simp only [decide_eq_true_eq] at *; omega)
    (fun a b hab ↦ by simp only [decide_eq_true_eq, decide_eq_false_iff_not] at *; omega)
  simp only [decide_eq_true_eq, decide_eq_false_iff_not] at hbefore hbehind
  refine ⟨by simp, fun y hy ↦ ?_⟩
  rcases List.mem_append.mp hy with hy | hy
  · exact hbefore y hy
  · rcases List.mem_cons.mp hy with rfl | hy
    · exact Nat.le_refl _
    · have := hbehind y hy
      omega

end Shelf

/-! ## Candidates -/

variable {side : Side} {ops : List StoreOp} {name : String} {options : LoadOptions}

/-- Candidates stand on the shelf in the order of their versions. -/
theorem Candidate.version_lt {i j : Nat} {p q : PromptData}
    (hp : Candidate side ops name options i p) (hq : Candidate side ops name options j q)
    (h : q.ref.Below p.ref) : q.ref.version < p.ref.version := by
  have hname : q.ref.name = p.ref.name := hq.name_eq.trans hp.name_eq.symm
  have hvariant : q.ref.variant = p.ref.variant := hq.variant_eq.trans hp.variant_eq.symm
  rcases h with hlt | ⟨-, hlt | ⟨-, hlt⟩⟩
  · rw [hname] at hlt
    exact absurd hlt (String.lt_irrefl _)
  · rw [hvariant, ← compare_option_eq_lt] at hlt
    simp at hlt
  · exact hlt

/-- Candidates differ in their versions only. -/
theorem Candidate.ref_eq {i j : Nat} {p q : PromptData}
    (hp : Candidate side ops name options i p) (hq : Candidate side ops name options j q)
    (h : p.ref.version = q.ref.version) : p.ref = q.ref := by
  have hname : p.ref.name = q.ref.name := hp.name_eq.trans hq.name_eq.symm
  have hvariant : p.ref.variant = q.ref.variant := hp.variant_eq.trans hq.variant_eq.symm
  cases hpref : p.ref
  cases hqref : q.ref
  simp_all

-- Versions that are not above each other have one text.
private theorem text_eq_of_antisymm {v w : String} {ns ms : List Nat}
    (hpq : ms < ns ∨ ms = ns ∧ (w < v ∨ w = v)) (hqp : ns < ms ∨ ns = ms ∧ (v < w ∨ v = w)) :
    v = w := by
  rcases hpq with hlt | ⟨rfl, hpq⟩
  · rcases hqp with hgt | ⟨rfl, -⟩
    · exact absurd hgt (List.lt_asymm hlt)
    · exact absurd hlt (List.lt_irrefl _)
  · rcases hqp with hgt | ⟨-, hqp⟩
    · exact absurd hgt (List.lt_irrefl _)
    · rcases hpq with hlt | heq
      · rcases hqp with hgt | heq
        · exact absurd hgt (String.lt_asymm hlt)
        · exact heq
      · exact heq.symm

/-- There is only one newest candidate. -/
theorem Newest.unique {i j : Nat} {p q : PromptData} (hp : Newest side ops name options i p)
    (hq : Newest side ops name options j q) : p = q := by
  by_cases hall : AllNumbered side ops name options
  · obtain ⟨v, ns, hv⟩ := hall i p hp.candidate
    obtain ⟨w, ms, hw⟩ := hall j q hq.candidate
    have htext : v = w :=
      text_eq_of_antisymm (hp.greatest hall j q hq.candidate v ns w ms hv hw)
        (hq.greatest hall i p hp.candidate w ms v ns hw hv)
    have hversion : p.ref.version = q.ref.version := by rw [hv.version_eq, hw.version_eq, htext]
    exact (hp.candidate.live.unique hq.candidate.live (hp.candidate.ref_eq hq.candidate hversion)).2
  · have hij : i = j :=
      Nat.le_antisymm (hq.latest hall i p hp.candidate) (hp.latest hall j q hq.candidate)
    subst hij
    have hsame := hp.candidate.live.saved.symm.trans hq.candidate.live.saved
    simp_all

namespace MemoryStore

/-- The entries that a load chooses from are the candidates. -/
theorem mem_candidates_after {e : PromptRef × Saved} :
    e ∈ ((after ops).shelf side).candidates name options ↔
      ∃ i, Candidate side ops name options i ⟨e.1, e.2.source⟩ ∧
        e.2.number = savesThrough ops i := by
  have hpinned : options.version = none ∨ e.1.version = options.version ↔
      ∀ version, options.version = some version → e.1.version = some version := by
    cases options.version <;> simp
  rw [Shelf.candidates, List.mem_filter, ← SortedMap.get?_eq_some_iff, get?_shelf_after]
  simp only [Bool.and_eq_true, decide_eq_true_eq, Bool.or_eq_true, Option.isNone_iff_eq_none,
    hpinned]
  constructor
  · rintro ⟨⟨i, hlive, hnumber⟩, ⟨hname, hvariant⟩, hversion⟩
    exact ⟨i, ⟨hlive, hname, hvariant, hversion⟩, hnumber⟩
  · rintro ⟨i, h, hnumber⟩
    exact ⟨⟨i, h.live, hnumber⟩, ⟨h.name_eq, h.variant_eq⟩, h.pinned⟩

/-- A candidate is among the entries that a load chooses from. -/
theorem mem_candidates_of_candidate {i : Nat} {p : PromptData}
    (h : Candidate side ops name options i p) :
    (p.ref, ⟨p.source, savesThrough ops i⟩) ∈ ((after ops).shelf side).candidates name options :=
  mem_candidates_after.mpr ⟨i, h, rfl⟩

/-- The candidates of a load are compared by their numbers if every live one of them is numbered. -/
theorem all_isSome_version?_iff :
    (((after ops).shelf side).candidates name options).all (fun e ↦ (Shelf.version? e).isSome) =
      true ↔ AllNumbered side ops name options := by
  rw [List.all_eq_true]
  simp only [Option.isSome_iff_exists, Shelf.version?_eq_some_iff]
  constructor
  · intro h i p hp
    obtain ⟨ns, v, hv⟩ := h _ (mem_candidates_of_candidate hp)
    exact ⟨v, ns, hv⟩
  · intro h e he
    obtain ⟨i, hcandidate, -⟩ := mem_candidates_after.mp he
    obtain ⟨v, ns, hv⟩ := h i _ hcandidate
    exact ⟨ns, v, hv⟩

/-- The entries that a load chooses from stand in ascending order. -/
theorem candidates_after_ascending :
    (((after ops).shelf side).candidates name options).Pairwise fun a b ↦ a.1.Below b.1 :=
  (((after ops).shelf side).ascending.filter _).imp PromptRef.compare_eq_lt_iff.mp

/-- What a load chooses is the newest candidate. -/
theorem exists_newest_of_newest? {e : PromptRef × Saved}
    (h : Shelf.newest? (((after ops).shelf side).candidates name options) = some e) :
    ∃ i, Newest side ops name options i ⟨e.1, e.2.source⟩ := by
  by_cases hall : AllNumbered side ops name options
  · obtain ⟨hmem, hgreatest⟩ := Shelf.numbers_le_of_newest? candidates_after_ascending
      (all_isSome_version?_iff.mpr hall) h
    obtain ⟨i, hcandidate, -⟩ := mem_candidates_after.mp hmem
    refine ⟨i, hcandidate, fun _ j q hq v ns w ms hv hw ↦ ?_, fun hnot ↦ absurd hall hnot⟩
    refine (hgreatest _ (mem_candidates_of_candidate hq) v ns w ms hv hw).imp_right ?_
    rintro ⟨heq, rfl | hbelow⟩
    · have htext : w = v := Option.some.inj (hw.version_eq.symm.trans hv.version_eq)
      exact ⟨heq, .inr htext⟩
    · -- one name and one variant, so that what is below has the lower text
      have hlt := hcandidate.version_lt hq hbelow
      rw [hw.version_eq, hv.version_eq, Option.some_lt_some] at hlt
      exact ⟨heq, .inl hlt⟩
  · obtain ⟨hmem, hgreatest⟩ :=
      Shelf.number_le_of_newest? (mt all_isSome_version?_iff.mp hall) h
    obtain ⟨i, hcandidate, hnumber⟩ := mem_candidates_after.mp hmem
    refine ⟨i, hcandidate, fun hyes ↦ absurd hyes hall, fun _ j q hq ↦ ?_⟩
    have hle : savesThrough ops j ≤ e.2.number := hgreatest _ (mem_candidates_of_candidate hq)
    by_contra hlater
    have hlt : savesThrough ops i < savesThrough ops j :=
      savesThrough_lt (by omega) hq.live.saved
    omega

/-- A load finds nothing exactly when there is no candidate. -/
theorem load_shelf_eq_none_iff :
    Shelf.load ((after ops).shelf side) name options = none ↔
      ¬ ∃ i p, Candidate side ops name options i p := by
  rw [Shelf.load, Option.map_eq_none_iff, Shelf.newest?_eq_none_iff,
    List.eq_nil_iff_forall_not_mem]
  constructor
  · rintro h ⟨i, p, hp⟩
    exact h _ (mem_candidates_of_candidate hp)
  · intro h e he
    obtain ⟨i, hcandidate, -⟩ := mem_candidates_after.mp he
    exact h ⟨i, _, hcandidate⟩

/-- A load finds the newest candidate. -/
theorem load_shelf_eq_some_iff {p : PromptData} :
    Shelf.load ((after ops).shelf side) name options = some p ↔
      ∃ i, Newest side ops name options i p := by
  have hsound : ∀ q, Shelf.load ((after ops).shelf side) name options = some q →
      ∃ i, Newest side ops name options i q := by
    intro q hq
    obtain ⟨e, he, rfl⟩ := Option.map_eq_some_iff.mp hq
    exact exists_newest_of_newest? he
  refine ⟨hsound p, fun ⟨i, hp⟩ ↦ ?_⟩
  cases hload : Shelf.load ((after ops).shelf side) name options with
  | none => exact absurd ⟨i, p, hp.candidate⟩ (load_shelf_eq_none_iff.mp hload)
  | some q =>
    obtain ⟨j, hq⟩ := hsound q hload
    rw [hq.unique hp]

-- Numbers decide before the order of the saves does.
example : (after [.save .prompts ⟨⟨"p", none, some "10"⟩, "ten"⟩,
    .save .prompts ⟨⟨"p", none, some "9"⟩, "nine"⟩]).load "p" {} =
      some ⟨⟨"p", none, some "10"⟩, "ten"⟩ := by decide

/-- A shelf lists what is live. -/
theorem mem_keys_shelf_iff {ref : PromptRef} :
    ref ∈ ((after ops).shelf side).keys ↔ ∃ i source, Live side ops i ⟨ref, source⟩ := by
  rw [SortedMap.mem_keys_iff]
  constructor
  · rintro ⟨e, he⟩
    obtain ⟨i, hlive, -⟩ := get?_shelf_after.mp he
    exact ⟨i, e.source, hlive⟩
  · rintro ⟨i, source, hlive⟩
    exact ⟨⟨source, savesThrough ops i⟩, get?_shelf_after.mpr ⟨i, hlive, rfl⟩⟩

/-- What one side answers. -/
theorem answers_shelf (side : Side) (ops : List StoreOp) :
    Answers side ops (Shelf.load ((after ops).shelf side)) ((after ops).shelf side).keys where
  load_eq_none_iff _ _ := load_shelf_eq_none_iff
  load_eq_some_iff _ _ _ := load_shelf_eq_some_iff
  mem_list_iff _ := mem_keys_shelf_iff
  ascending := (SortedMap.ascending_keys _).imp PromptRef.compare_eq_lt_iff.mp

/-- After any operations, loads and listings of both sides answer from the history, and a delete
tells whether the prompt was live. -/
theorem answers_after (ops : List StoreOp) :
    Answers .prompts ops (after ops).load (after ops).list ∧
      Answers .partials ops (after ops).loadPartial (after ops).listPartials ∧
        ∀ ref, ((after ops).delete ref).1 = true ↔
          ∃ i source, Live .prompts ops i ⟨ref, source⟩ := by
  refine ⟨answers_shelf .prompts ops, answers_shelf .partials ops, fun ref ↦ ?_⟩
  rw [← mem_keys_shelf_iff, SortedMap.mem_keys_iff, ← Option.isSome_iff_exists]
  rfl

end MemoryStore

end PromptDoc
