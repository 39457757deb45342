import PromptDoc.Proofs.Store.Answers

/-!
# Versions of any size

Versions that are decimal numbers of any size with dots between them. They are compared as numbers
as long as each of the numbers has at most 64 bits. One that has more is not read as a number, and
then no version of the candidates counts: the one saved last is loaded. Main statement: which
candidate a load gives, and that it gives one (`load_decimals`).
-/

namespace PromptDoc

/-- Decimal numbers of any size, at least one, with dots between them. -/
inductive WritesDecimals : List Char → List Nat → Prop
  | last {cs : List Char} {n : Nat} : WritesDecimal cs n → WritesDecimals cs [n]
  | dot {cs rest : List Char} {n : Nat} {ns : List Nat} : WritesDecimal cs n →
      WritesDecimals rest ns → WritesDecimals (cs ++ '.' :: rest) (n :: ns)

/-- The version of the reference is such numbers, behind an optional `v`. -/
inductive PromptRef.Decimals (ref : PromptRef) (ns : List Nat) : Prop
  | plain {version : String} : ref.version = some version → WritesDecimals version.toList ns →
      ref.Decimals ns
  | lead {version : String} {cs : List Char} : ref.version = some version →
      version.toList = 'v' :: cs → WritesDecimals cs ns → ref.Decimals ns

/-- All numbers have at most 64 bits. -/
def WordSized (ns : List Nat) : Prop := ∀ n ∈ ns, n < UInt64.size

instance (ns : List Nat) : Decidable (WordSized ns) :=
  inferInstanceAs (Decidable (∀ n ∈ ns, n < UInt64.size))

/-! ## How numbers of any size are read -/

private theorem WritesDecimal.notMem {cs : List Char} {n : Nat} (h : WritesDecimal cs n) {c : Char}
    (hc : c.isDigit = false) : c ∉ cs :=
  fun hmem ↦ by simp [h.isDigit c hmem] at hc

/-- A number is a component if it has at most 64 bits. -/
theorem component?_of_writesDecimal {cs : List Char} {n : Nat} (h : WritesDecimal cs n) :
    component? cs = if n < UInt64.size then some n else none := by
  split
  next hn => exact component?_eq_some_iff.mpr (.plain h hn)
  next hn =>
    rw [Option.eq_none_iff_forall_ne_some]
    intro m hm
    cases component?_eq_some_iff.mp hm with
    | plain hm hlt =>
      have hsame : n = m :=
        Option.some.inj ((decimal?_eq_some_iff.mpr h).symm.trans (decimal?_eq_some_iff.mpr hm))
      exact hn (hsame ▸ hlt)
    | plus => exact h.notMem (by decide) List.mem_cons_self

/-- Numbers with dots between them are components if each of them has at most 64 bits. -/
theorem mapM_component?_of_writesDecimals {cs : List Char} {ns : List Nat}
    (h : WritesDecimals cs ns) :
    (Text.fields '.' cs).mapM component? = if WordSized ns then some ns else none := by
  induction h with
  | last hn =>
    rename_i n
    rw [Text.fields_of_notMem (hn.notMem (by decide)), List.mapM_cons,
      component?_of_writesDecimal hn]
    by_cases hsize : n < UInt64.size <;> simp [WordSized, hsize]
  | dot hn _ ih =>
    rename_i n ns _
    rw [Text.fields_append_cons (hn.notMem (by decide)), List.mapM_cons, ih,
      component?_of_writesDecimal hn]
    have hcons : WordSized (n :: ns) ↔ n < UInt64.size ∧ WordSized ns := List.forall_mem_cons
    by_cases hsize : n < UInt64.size <;> by_cases hsizes : WordSized ns <;>
      simp [hcons, hsize, hsizes]

private theorem WritesDecimals.isDigit_or_dot {cs : List Char} {ns : List Nat}
    (h : WritesDecimals cs ns) : ∀ c ∈ cs, c.isDigit = true ∨ c = '.' := by
  induction h with
  | last hn => exact fun c hc ↦ .inl (hn.isDigit c hc)
  | dot hn _ ih =>
    intro c hc
    rcases List.mem_append.mp hc with hc | hc
    · exact .inl (hn.isDigit c hc)
    · exact (List.mem_cons.mp hc).elim .inr (ih c)

/-- The numbers of a version are read if each of them has at most 64 bits. -/
theorem PromptRef.Decimals.numericVersion?_eq {ref : PromptRef} {ns : List Nat}
    (h : ref.Decimals ns) :
    ref.version.bind numericVersion? = if WordSized ns then some ns else none := by
  cases h with
  | plain hversion hwrites =>
    rw [hversion, Option.bind_some, numericVersion?]
    split
    next hv =>
      -- a `v` is neither a digit nor a dot
      have hlead := hwrites.isDigit_or_dot 'v' (hv ▸ List.mem_cons_self)
      simp at hlead
    next => exact mapM_component?_of_writesDecimals hwrites
  | lead hversion hv hwrites =>
    rw [hversion, Option.bind_some, numericVersion?, hv]
    exact mapM_component?_of_writesDecimals hwrites

/-- What makes a numeric version is numbers of at most 64 bits. -/
theorem PromptRef.Numbered.eq_of_decimals {ref : PromptRef} {text : String} {ns ms : List Nat}
    (h : ref.Numbered text ms) (hns : ref.Decimals ns) : ms = ns ∧ WordSized ns := by
  have hread := hns.numericVersion?_eq
  rw [h.version_eq, Option.bind_some, numericVersion?_eq_some_iff.mpr h.writes] at hread
  split at hread
  next hsize => exact ⟨Option.some.inj hread, hsize⟩
  next => cases hread

/-- Numbers of at most 64 bits make a numeric version. -/
theorem PromptRef.Decimals.exists_numbered {ref : PromptRef} {ns : List Nat} (h : ref.Decimals ns)
    (hsize : WordSized ns) : ∃ text, ref.Numbered text ns := by
  have hread := h.numericVersion?_eq
  rw [if_pos hsize, Option.bind_eq_some_iff] at hread
  obtain ⟨text, hversion, htext⟩ := hread
  exact ⟨text, hversion, numericVersion?_eq_some_iff.mp htext⟩

/-! ## Which candidate is loaded -/

variable {side : Side} {ops : List StoreOp} {name : String} {options : LoadOptions}

/-- The candidate's numbers are the greatest of those of all candidates. -/
def Greatest (side : Side) (ops : List StoreOp) (name : String) (options : LoadOptions)
    (p : PromptData) : Prop :=
  ∃ ns, p.ref.Decimals ns ∧ ∀ j q ms, Candidate side ops name options j q → q.ref.Decimals ms →
    ms < ns ∨ ms = ns

/-- All numbers of all candidates have at most 64 bits. -/
def AllWordSized (side : Side) (ops : List StoreOp) (name : String) (options : LoadOptions) :
    Prop :=
  ∀ i p ns, Candidate side ops name options i p → p.ref.Decimals ns → WordSized ns

/-- Every candidate's version is numbers of any size. -/
def AllDecimals (side : Side) (ops : List StoreOp) (name : String) (options : LoadOptions) : Prop :=
  ∀ i p, Candidate side ops name options i p → ∃ ns, p.ref.Decimals ns

/-- Versions of numbers are all numeric exactly if the numbers have at most 64 bits. -/
theorem AllDecimals.allNumbered_iff (h : AllDecimals side ops name options) :
    AllNumbered side ops name options ↔ AllWordSized side ops name options := by
  constructor
  · intro hall i p ns hp hns
    obtain ⟨text, ms, hms⟩ := hall i p hp
    exact (hms.eq_of_decimals hns).2
  · intro hsize i p hp
    obtain ⟨ns, hns⟩ := h i p hp
    obtain ⟨text, htext⟩ := hns.exists_numbered (hsize i p ns hp hns)
    exact ⟨text, ns, htext⟩

/-- The newest candidate has the greatest numbers if all of them have at most 64 bits. -/
theorem Newest.greatest_of_allWordSized {i : Nat} {p : PromptData}
    (hnewest : Newest side ops name options i p) (hall : AllDecimals side ops name options)
    (hsize : AllWordSized side ops name options) : Greatest side ops name options p := by
  have hp := hnewest.candidate
  obtain ⟨ns, hns⟩ := hall i p hp
  obtain ⟨v, hv⟩ := hns.exists_numbered (hsize i p ns hp hns)
  refine ⟨ns, hns, fun j q ms hq hms ↦ ?_⟩
  obtain ⟨w, hw⟩ := hms.exists_numbered (hsize j q ms hq hms)
  have hnumbered := hall.allNumbered_iff.mpr hsize
  exact (hnewest.greatest hnumbered j q hq v ns w ms hv hw).imp_right And.left

/-- Of versions that are numbers of any size a load without a version gives the greatest, if all
the numbers have at most 64 bits; else it gives the candidate saved last. -/
theorem load_decimals (side : Side) (ops : List StoreOp) (name : String) (variant : Option String)
    (hsome : ∃ i p, Candidate side ops name { variant := variant } i p)
    (hall : AllDecimals side ops name { variant := variant }) :
    ∃ i p, Shelf.load ((MemoryStore.after ops).shelf side) name { variant := variant } = some p ∧
      Candidate side ops name { variant := variant } i p ∧
      (AllWordSized side ops name { variant := variant } →
        Greatest side ops name { variant := variant } p) ∧
      (¬ AllWordSized side ops name { variant := variant } →
        ∀ j q, Candidate side ops name { variant := variant } j q → j ≤ i) := by
  obtain ⟨p, hload⟩ := Option.ne_none_iff_exists'.mp
    (mt MemoryStore.load_shelf_eq_none_iff.mp (not_not_intro hsome))
  obtain ⟨i, hnewest⟩ := MemoryStore.load_shelf_eq_some_iff.mp hload
  refine ⟨i, p, hload, hnewest.candidate, hnewest.greatest_of_allWordSized hall, fun hsize ↦ ?_⟩
  exact hnewest.latest (mt hall.allNumbered_iff.mp hsize)

/-- Candidates can be looked through on the shelf. -/
theorem allDecimals_of_candidates
    (h : ∀ e ∈ ((MemoryStore.after ops).shelf side).candidates name options,
      ∃ ns, e.1.Decimals ns) : AllDecimals side ops name options :=
  fun _ _ hp ↦ h _ (MemoryStore.mem_candidates_of_candidate hp)

/-- A version that just fits, then one that is its beginning. -/
def fitting : List StoreOp :=
  [.save .prompts ⟨⟨"p", none, some "v18446744073709551615.0"⟩, "longer"⟩,
    .save .prompts ⟨⟨"p", none, some "18446744073709551615"⟩, "shorter"⟩]

/-- What is loaded is the longer one, although it was saved first. -/
theorem load_decimals_fitting :
    (∃ i p, Candidate .prompts fitting "p" {} i p) ∧ AllDecimals .prompts fitting "p" {} ∧
      ∃ i p, Shelf.load ((MemoryStore.after fitting).shelf .prompts) "p" {} = some p ∧
        Candidate .prompts fitting "p" {} i p ∧
        (AllWordSized .prompts fitting "p" {} → Greatest .prompts fitting "p" {} p) ∧
        (¬ AllWordSized .prompts fitting "p" {} →
          ∀ j q, Candidate .prompts fitting "p" {} j q → j ≤ i) := by
  have hentries : ((MemoryStore.after fitting).shelf .prompts).candidates "p" {} =
      [(⟨"p", none, some "18446744073709551615"⟩, ⟨"shorter", 2⟩),
        (⟨"p", none, some "v18446744073709551615.0"⟩, ⟨"longer", 1⟩)] := by decide
  have hsome : ∃ i p, Candidate .prompts fitting "p" {} i p := by
    obtain ⟨i, h, -⟩ := MemoryStore.mem_candidates_after.mp (hentries ▸ List.mem_cons_self)
    exact ⟨i, _, h⟩
  have hmax : WritesDecimal "18446744073709551615".toList 18446744073709551615 :=
    decimal?_eq_some_iff.mp (by decide)
  have hzero : WritesDecimal ['0'] 0 := decimal?_eq_some_iff.mp (by decide)
  have hall : AllDecimals .prompts fitting "p" {} := by
    refine allDecimals_of_candidates ?_
    rw [hentries, List.forall_mem_cons, List.forall_mem_singleton]
    exact ⟨⟨_, .plain rfl (.last hmax)⟩, ⟨_, .lead rfl (by decide) (.dot hmax (.last hzero))⟩⟩
  exact ⟨hsome, hall, load_decimals .prompts fitting "p" none hsome hall⟩

/-- A version that does not fit, then a small one. -/
def overlong : List StoreOp :=
  [.save .prompts ⟨⟨"p", none, some "18446744073709551616"⟩, "long"⟩,
    .save .prompts ⟨⟨"p", none, some "1"⟩, "short"⟩]

/-- Not every version is compared as a number: behind one of `2 ^ 64` the version `1` is newer. -/
theorem not_load_greatest : ¬ ∀ ops name variant,
    (∃ i p, Candidate .prompts ops name { variant := variant } i p) →
      AllDecimals .prompts ops name { variant := variant } →
        ∃ i p, (MemoryStore.after ops).load name { variant := variant } = some p ∧
          Candidate .prompts ops name { variant := variant } i p ∧
          Greatest .prompts ops name { variant := variant } p := by
  intro h
  have hentries : ((MemoryStore.after overlong).shelf .prompts).candidates "p" {} =
      [(⟨"p", none, some "1"⟩, ⟨"short", 2⟩),
        (⟨"p", none, some "18446744073709551616"⟩, ⟨"long", 1⟩)] := by decide
  have hlong : PromptRef.Decimals ⟨"p", none, some "18446744073709551616"⟩ [18446744073709551616] :=
    .plain rfl (.last (decimal?_eq_some_iff.mp (by decide)))
  have hone : WritesDecimal ['1'] 1 := decimal?_eq_some_iff.mp (by decide)
  have hshort : PromptRef.Decimals ⟨"p", none, some "1"⟩ [1] := .plain rfl (.last hone)
  have hall : AllDecimals .prompts overlong "p" {} := by
    refine allDecimals_of_candidates ?_
    rw [hentries, List.forall_mem_cons, List.forall_mem_singleton]
    exact ⟨⟨_, hshort⟩, ⟨_, hlong⟩⟩
  obtain ⟨j, hj, -⟩ := MemoryStore.mem_candidates_after.mp
    (hentries ▸ List.mem_cons_of_mem _ List.mem_cons_self)
  obtain ⟨-, p, hload, -, ns, hns, hgreatest⟩ := h overlong "p" none ⟨j, _, hj⟩ hall
  have hnewest : (MemoryStore.after overlong).load "p" {} =
      some ⟨⟨"p", none, some "1"⟩, "short"⟩ := by decide
  cases hnewest.symm.trans hload
  obtain ⟨_, hnumbered⟩ := hshort.exists_numbered (by decide)
  obtain ⟨rfl, -⟩ := hnumbered.eq_of_decimals hns
  have hnot : ¬ ([18446744073709551616] < [1] ∨ [18446744073709551616] = [1]) := by decide
  exact hnot (hgreatest j _ _ hj hlong)

end PromptDoc
