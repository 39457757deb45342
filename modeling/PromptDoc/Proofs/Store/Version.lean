import Mathlib.Data.List.Induction
import PromptDoc.Store.Version

/-!
# What a numeric version writes

The grammar of numeric versions as relations between texts and numbers: decimal digits, a component
with its bound and its plus sign, components with dots between them, the whole version with its
leading `v`. Main statements: versions are read exactly as the grammar says
(`numericVersion?_eq_some_iff`), and they are compared lexicographically (`versionLe_iff`).
-/

namespace PromptDoc

/-- Decimal digits, at least one, and the number that they write. -/
inductive WritesDecimal : List Char → Nat → Prop
  | digit {d : Nat} : d < 10 → WritesDecimal [Nat.digitChar d] d
  | snoc {cs : List Char} {n d : Nat} : WritesDecimal cs n → d < 10 →
      WritesDecimal (cs ++ [Nat.digitChar d]) (n * 10 + d)

/-- A number of at most 64 bits, with a plus sign or without. -/
inductive WritesComponent : List Char → Nat → Prop
  | plain {cs : List Char} {n : Nat} : WritesDecimal cs n → n < UInt64.size → WritesComponent cs n
  | plus {cs : List Char} {n : Nat} : WritesDecimal cs n → n < UInt64.size →
      WritesComponent ('+' :: cs) n

/-- Components, at least one, with dots between them. -/
inductive WritesDotted : List Char → List Nat → Prop
  | last {cs : List Char} {n : Nat} : WritesComponent cs n → WritesDotted cs [n]
  | dot {cs rest : List Char} {n : Nat} {ns : List Nat} : WritesComponent cs n →
      WritesDotted rest ns → WritesDotted (cs ++ '.' :: rest) (n :: ns)

/-- A version that is numbers with dots between them, behind an optional `v`. -/
inductive WritesVersion (version : String) (ns : List Nat) : Prop
  | plain : WritesDotted version.toList ns → WritesVersion version ns
  | lead {cs : List Char} : version.toList = 'v' :: cs → WritesDotted cs ns →
      WritesVersion version ns

/-! ## Decimal digits -/

private theorem digitChar_of_isDigit {c : Char} (h : c.isDigit = true) :
    c.toNat - 48 < 10 ∧ Nat.digitChar (c.toNat - 48) = c := by
  have hrange : 48 ≤ c.toNat ∧ c.toNat ≤ 57 := Char.isDigit_iff_toNat.mp h
  refine ⟨by omega, Char.toNat_inj.mp ?_⟩
  rw [Nat.toNat_digitChar_of_lt_ten (by omega)]
  omega

private theorem toNat_digitChar_sub {d : Nat} (h : d < 10) :
    (Nat.digitChar d).toNat - 48 = d := by
  rw [Nat.toNat_digitChar_of_lt_ten h]
  omega

private theorem decimal?_snoc {cs : List Char} {c : Char} (h : c.isDigit = true) :
    decimal? (cs ++ [c]) = if cs = [] then some (c.toNat - 48)
      else (decimal? cs).map fun n ↦ n * 10 + (c.toNat - 48) := by
  by_cases hcs : cs = []
  · simp [decimal?, hcs, h]
  · by_cases hall : cs.all Char.isDigit = true
    · simp [decimal?, hcs, h, hall, -List.all_eq_true]
    · simp [decimal?, hcs, hall, -List.all_eq_true]

/-- Digits are read as the number that they write. -/
theorem decimal?_eq_some_iff {cs : List Char} {n : Nat} :
    decimal? cs = some n ↔ WritesDecimal cs n := by
  constructor
  · intro h
    induction cs using List.reverseRecOn generalizing n with
    | nil => simp [decimal?] at h
    | append_singleton cs c ih =>
      have hdigit : c.isDigit = true := by
        by_contra hc
        simp [decimal?, hc] at h
      obtain ⟨hlt, hchar⟩ := digitChar_of_isDigit hdigit
      rw [decimal?_snoc hdigit] at h
      split at h
      next hnil =>
        subst hnil
        have hn : c.toNat - 48 = n := Option.some.inj h
        have hwrites := WritesDecimal.digit hlt
        rw [hchar, hn] at hwrites
        exact hwrites
      next =>
        obtain ⟨m, hm, rfl⟩ := Option.map_eq_some_iff.mp h
        have hwrites := WritesDecimal.snoc (ih hm) hlt
        rw [hchar] at hwrites
        exact hwrites
  · intro h
    induction h with
    | digit hd =>
      rename_i d
      have hvalue : (Nat.digitChar d).toNat - 48 = d := toNat_digitChar_sub hd
      simp [decimal?, Nat.isDigit_digitChar, hd, hvalue]
    | snoc _ hd ih =>
      rename_i cs n d _
      have hdigit : (Nat.digitChar d).isDigit = true := by simp [Nat.isDigit_digitChar, hd]
      have hne : cs ≠ [] := by
        rintro rfl
        simp [decimal?] at ih
      rw [decimal?_snoc hdigit, if_neg hne, ih, toNat_digitChar_sub hd]
      rfl

/-- What writes a number is digits. -/
theorem WritesDecimal.isDigit {cs : List Char} {n : Nat} (h : WritesDecimal cs n) :
    ∀ c ∈ cs, c.isDigit = true := by
  induction h with
  | digit hd => simp [Nat.isDigit_digitChar, hd]
  | snoc _ hd ih => grind [Nat.isDigit_digitChar]

/-! ## Components and versions -/

/-- Components are read as the grammar says. -/
theorem component?_eq_some_iff {cs : List Char} {n : Nat} :
    component? cs = some n ↔ WritesComponent cs n := by
  have hbound : n < Decimal.pow2 64 ↔ n < UInt64.size := Iff.rfl
  unfold component?
  rw [Option.filter_eq_some_iff, decide_eq_true_eq, hbound]
  constructor
  · rintro ⟨h, hn⟩
    split at h
    · exact .plus (decimal?_eq_some_iff.mp h) hn
    · exact .plain (decimal?_eq_some_iff.mp h) hn
  · intro h
    cases h with
    | plus h hn => exact ⟨decimal?_eq_some_iff.mpr h, hn⟩
    | plain h hn =>
      refine ⟨?_, hn⟩
      split
      · -- a plus sign is no digit
        exact absurd (h.isDigit '+' List.mem_cons_self) (by decide)
      · exact decimal?_eq_some_iff.mpr h

private theorem WritesComponent.notMem {cs : List Char} {n : Nat} (h : WritesComponent cs n)
    {c : Char} (hdigit : c.isDigit = false) (hplus : c ≠ '+') : c ∉ cs := by
  intro hc
  cases h with
  | plain h => simp [h.isDigit c hc] at hdigit
  | plus h =>
    rcases List.mem_cons.mp hc with rfl | hc
    · exact hplus rfl
    · simp [h.isDigit c hc] at hdigit

private theorem mapM_component?_cons {f : List Char} {fs : List (List Char)} {ns : List Nat} :
    (f :: fs).mapM component? = some ns ↔
      ∃ m ms, WritesComponent f m ∧ fs.mapM component? = some ms ∧ ns = m :: ms := by
  rw [List.mapM_cons]
  cases hf : component? f with
  | none =>
    have hnot : ∀ m, ¬ WritesComponent f m := fun m hm ↦ by
      simp [component?_eq_some_iff.mpr hm] at hf
    simp [hnot]
  | some m =>
    have hm : ∀ m', WritesComponent f m' ↔ m' = m := fun m' ↦ by
      rw [← component?_eq_some_iff, hf, Option.some.injEq, eq_comm]
    cases fs.mapM component? with
    | none => simp
    | some ms => simp [hm, eq_comm]

/-- Dotted components are read as the grammar says. -/
theorem mapM_component?_fields_eq_some_iff {cs : List Char} {ns : List Nat} :
    (Text.fields '.' cs).mapM component? = some ns ↔ WritesDotted cs ns := by
  constructor
  · -- the induction is on the length, since a cut leaves any shorter text
    induction hlen : cs.length using Nat.strongRecOn generalizing cs ns with
    | ind len ih =>
    intro h
    cases hcut : Text.cutFirst? '.' cs with
    | none =>
      rw [Text.fields_of_notMem (Text.cutFirst?_eq_none_iff.mp hcut), mapM_component?_cons] at h
      obtain ⟨m, ms, hm, hms, rfl⟩ := h
      cases hms
      exact .last hm
    | some p =>
      obtain ⟨before, rest⟩ := p
      obtain ⟨rfl, hdot⟩ := Text.cutFirst?_eq_some_iff.mp hcut
      rw [Text.fields_append_cons hdot, mapM_component?_cons] at h
      obtain ⟨m, ms, hm, hms, rfl⟩ := h
      have hshort : rest.length < len := by
        rw [← hlen, List.length_append, List.length_cons]
        omega
      exact .dot hm (ih _ hshort rfl hms)
  · intro h
    induction h with
    | last hm =>
      rw [Text.fields_of_notMem (hm.notMem (by decide) (by decide)), mapM_component?_cons]
      exact ⟨_, [], hm, rfl, rfl⟩
    | dot hm _ ih =>
      rw [Text.fields_append_cons (hm.notMem (by decide) (by decide)), mapM_component?_cons]
      exact ⟨_, _, hm, ih, rfl⟩

private theorem WritesDotted.head_ne {cs : List Char} {ns : List Nat} (h : WritesDotted cs ns)
    {c : Char} {rest : List Char} (hcs : cs = c :: rest) : c ≠ 'v' := by
  rintro rfl
  cases h with
  | last hm =>
    have hnot := hm.notMem (c := 'v') (by decide) (by decide)
    simp [hcs] at hnot
  | dot hm _ =>
    rename_i first _ _ _ _
    cases first with
    | nil => simp at hcs
    | cons c first =>
      have hnot := hm.notMem (c := 'v') (by decide) (by decide)
      simp_all

/-- Versions are read as the grammar says. -/
theorem numericVersion?_eq_some_iff {version : String} {ns : List Nat} :
    numericVersion? version = some ns ↔ WritesVersion version ns := by
  rw [numericVersion?, mapM_component?_fields_eq_some_iff]
  constructor
  · intro h
    split at h
    next hv => exact .lead hv h
    next => exact .plain h
  · intro h
    cases h with
    | lead hv h =>
      rw [hv]
      exact h
    | plain h =>
      split
      next hv => exact absurd rfl (h.head_ne hv)
      next => exact h

/-- A version writes no two lists of numbers. -/
theorem WritesVersion.unique {version : String} {ns ms : List Nat}
    (hn : WritesVersion version ns) (hm : WritesVersion version ms) : ns = ms :=
  Option.some.inj
    ((numericVersion?_eq_some_iff.mpr hn).symm.trans (numericVersion?_eq_some_iff.mpr hm))

/-- Versions are compared lexicographically, and a proper beginning is below the whole. -/
theorem versionLe_iff {as bs : List Nat} : versionLe as bs = true ↔ as < bs ∨ as = bs := by
  induction as generalizing bs with
  | nil => cases bs <;> simp [versionLe]
  | cons a as ih =>
    cases bs with
    | nil => simp [versionLe]
    | cons b bs =>
      simp only [versionLe, Bool.or_eq_true, decide_eq_true_eq, Bool.and_eq_true, beq_iff_eq, ih,
        List.cons_lt_cons_iff, List.cons.injEq]
      tauto

/-- A version that is not below another or equal to it is above it. -/
theorem versionLe_eq_false_iff {as bs : List Nat} : versionLe as bs = false ↔ bs < as := by
  induction as generalizing bs with
  | nil => cases bs <;> simp [versionLe]
  | cons a as ih =>
    cases bs with
    | nil => simp [versionLe]
    | cons b bs =>
      simp only [versionLe, Bool.or_eq_false_iff, decide_eq_false_iff_not, Bool.and_eq_false_iff,
        beq_eq_false_iff_ne, ih, List.cons_lt_cons_iff]
      by_cases hrest : bs < as
      · simp only [hrest, or_true, and_true]
        omega
      · simp only [hrest, or_false, and_false]
        omega

/-- The order of versions by their numbers is transitive. -/
theorem versionLe_trans {as bs cs : List Nat} (hab : versionLe as bs = true)
    (hbc : versionLe bs cs = true) : versionLe as cs = true := by
  rw [versionLe_iff] at *
  rcases hab with hab | rfl
  · rcases hbc with hbc | rfl
    · exact .inl (List.lt_trans hab hbc)
    · exact .inl hab
  · exact hbc

end PromptDoc
