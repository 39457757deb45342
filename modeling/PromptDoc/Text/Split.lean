/-!
# Cutting texts

Cutting a text at a separator, and taking a known text off its front. Main statements: joining the
parts with the separator gives the text back, and a part holds no separator where none may be.
-/

namespace PromptDoc.Text

/-- What follows `lead` in a text that starts with it. -/
def after? : (lead cs : List Char) → Option (List Char)
  | [], cs => some cs
  | _ :: _, [] => none
  | l :: ls, c :: cs => if l = c then after? ls cs else none

/-- The parts before and after the first `sep`. -/
def cutFirst? (sep : Char) : List Char → Option (List Char × List Char)
  | [] => none
  | c :: cs => if c = sep then some ([], cs) else (cutFirst? sep cs).map fun p ↦ (c :: p.1, p.2)

/-- The parts before and after the last `sep`. -/
def cutLast? (sep : Char) : List Char → Option (List Char × List Char)
  | [] => none
  | c :: cs =>
    match cutLast? sep cs with
    | some (before, rest) => some (c :: before, rest)
    | none => if c = sep then some ([], cs) else none

/-- The fields between single separators; there is one more than there are separators. -/
def fields (sep : Char) : List Char → List (List Char)
  | [] => [[]]
  | c :: cs =>
    if c = sep then [] :: fields sep cs
    else match fields sep cs with
      | [] => [[c]]
      | f :: fs => (c :: f) :: fs

/-- The text less one `c` at its end, if there is one. -/
def stripEnd (c : Char) (cs : List Char) : List Char :=
  if cs.getLast? = some c then cs.dropLast else cs

/-- A text starts with `lead` exactly when it is `lead` and what follows. -/
theorem after?_eq_some_iff {lead cs rest : List Char} :
    after? lead cs = some rest ↔ cs = lead ++ rest := by
  induction lead generalizing cs with
  | nil => simp [after?, eq_comm]
  | cons l ls ih =>
    cases cs with
    | nil => simp [after?]
    | cons c cs =>
      by_cases h : l = c
      · simp [after?, h, ih]
      · simp [after?, h, Ne.symm h]

/-- A cut at the first separator gives two parts of the text, the first without a separator. -/
theorem cutFirst?_eq_some_iff {sep : Char} {cs before rest : List Char} :
    cutFirst? sep cs = some (before, rest) ↔ cs = before ++ sep :: rest ∧ sep ∉ before := by
  induction cs generalizing before with
  | nil => simp [cutFirst?]
  | cons c cs ih =>
    by_cases h : c = sep
    · subst h
      cases before with
      | nil => simp [cutFirst?, eq_comm]
      | cons b bs =>
        simp only [cutFirst?, ↓reduceIte, Option.some.injEq, Prod.mk.injEq, List.cons_append,
          List.cons.injEq, List.mem_cons]
        grind
    · cases before with
      | nil => simp [cutFirst?, h]
      | cons b bs =>
        simp only [cutFirst?, h, ↓reduceIte, Option.map_eq_some_iff, Prod.exists]
        grind

/-- There is nothing to cut exactly when the separator does not occur. -/
theorem cutFirst?_eq_none_iff {sep : Char} {cs : List Char} :
    cutFirst? sep cs = none ↔ sep ∉ cs := by
  induction cs with
  | nil => simp [cutFirst?]
  | cons c cs ih =>
    by_cases h : c = sep
    · simp [cutFirst?, h]
    · simp [cutFirst?, h, ih, Ne.symm h]

/-- There is nothing to cut exactly when the separator does not occur. -/
theorem cutLast?_eq_none_iff {sep : Char} {cs : List Char} :
    cutLast? sep cs = none ↔ sep ∉ cs := by
  induction cs with
  | nil => simp [cutLast?]
  | cons c cs ih =>
    cases hcut : cutLast? sep cs with
    | none =>
      have hcs := ih.mp hcut
      by_cases h : c = sep
      · simp [cutLast?, hcut, h]
      · simp [cutLast?, hcut, h, hcs, Ne.symm h]
    | some p =>
      have hcs : sep ∈ cs := by simpa [hcut] using mt ih.mpr
      simp [cutLast?, hcut, hcs]

/-- A cut at the last separator gives two parts of the text, the second without a separator. -/
theorem cutLast?_eq_some_iff {sep : Char} {cs before rest : List Char} :
    cutLast? sep cs = some (before, rest) ↔ cs = before ++ sep :: rest ∧ sep ∉ rest := by
  induction cs generalizing before rest with
  | nil => simp [cutLast?]
  | cons c cs ih =>
    cases hcut : cutLast? sep cs with
    | none =>
      have hcs := cutLast?_eq_none_iff.mp hcut
      by_cases h : c = sep
      · subst h
        cases before with
        | nil => simp only [cutLast?, hcut, ↓reduceIte]; grind
        | cons b bs => simp only [cutLast?, hcut, ↓reduceIte]; grind
      · cases before with
        | nil => simp only [cutLast?, hcut, h, ↓reduceIte]; grind
        | cons b bs => simp only [cutLast?, hcut, h, ↓reduceIte]; grind
    | some p =>
      obtain ⟨b, r⟩ := p
      have hcs := ih.mp hcut
      cases before with
      | nil => simp only [cutLast?, hcut]; grind
      | cons b' bs =>
        have := @ih bs rest
        simp only [cutLast?, hcut, Option.some.injEq, Prod.mk.injEq, List.cons.injEq,
          List.cons_append] at this ⊢
        grind

/-- There is always a field. -/
theorem fields_ne_nil (sep : Char) (cs : List Char) : fields sep cs ≠ [] := by
  cases cs with
  | nil => simp [fields]
  | cons c cs =>
    simp only [fields]
    split
    · simp
    · split <;> simp

/-- A text without separator is one field. -/
theorem fields_of_notMem {sep : Char} {cs : List Char} (h : sep ∉ cs) : fields sep cs = [cs] := by
  induction cs with
  | nil => rfl
  | cons c cs ih =>
    rw [List.mem_cons, not_or] at h
    rw [fields, if_neg (Ne.symm h.1), ih h.2]

/-- The first field ends at the first separator. -/
theorem fields_append_cons {sep : Char} {as bs : List Char} (h : sep ∉ as) :
    fields sep (as ++ sep :: bs) = as :: fields sep bs := by
  induction as with
  | nil => simp [fields]
  | cons a as ih =>
    rw [List.mem_cons, not_or] at h
    rw [List.cons_append, fields, if_neg (Ne.symm h.1), ih h.2]

/-- A text without separator in front makes the first field longer. -/
theorem fields_append {sep : Char} {lead cs f : List Char} {fs : List (List Char)}
    (h : sep ∉ lead) (hcs : fields sep cs = f :: fs) :
    fields sep (lead ++ cs) = (lead ++ f) :: fs := by
  induction lead with
  | nil => exact hcs
  | cons c lead ih =>
    rw [List.mem_cons, not_or] at h
    rw [List.cons_append, fields, if_neg (Ne.symm h.1), ih h.2]
    rfl

/-- The first field stands before the first separator, the others behind it. -/
theorem fields_eq_cons {sep : Char} {cs f : List Char} {fs : List (List Char)}
    (h : fields sep cs = f :: fs) :
    sep ∉ f ∧ (fs = [] ∧ cs = f ∨ ∃ rest, cs = f ++ sep :: rest ∧ fields sep rest = fs) := by
  cases hcut : cutFirst? sep cs with
  | none =>
    have hmem := cutFirst?_eq_none_iff.mp hcut
    rw [fields_of_notMem hmem] at h
    cases h
    exact ⟨hmem, .inl ⟨rfl, rfl⟩⟩
  | some p =>
    obtain ⟨before, rest⟩ := p
    obtain ⟨rfl, hmem⟩ := cutFirst?_eq_some_iff.mp hcut
    rw [fields_append_cons hmem] at h
    cases h
    exact ⟨hmem, .inr ⟨rest, rfl, rfl⟩⟩

/-- A text of one field holds no separator. -/
theorem fields_eq_singleton {sep : Char} {cs f : List Char} (h : fields sep cs = [f]) :
    sep ∉ f ∧ cs = f := by
  obtain ⟨hmem, ⟨-, hcs⟩ | ⟨rest, -, hrest⟩⟩ := fields_eq_cons h
  · exact ⟨hmem, hcs⟩
  · exact absurd hrest (fields_ne_nil sep rest)

/-- There is one field more than there are separators. -/
theorem length_fields (sep : Char) (cs : List Char) :
    (fields sep cs).length = cs.count sep + 1 := by
  induction cs with
  | nil => rfl
  | cons c cs ih =>
    rw [fields]
    split
    · next h => rw [h, List.length_cons, ih, List.count_cons_self]
    · next h =>
      rw [List.count_cons_of_ne h]
      split
      · next hnil => exact absurd hnil (fields_ne_nil sep cs)
      · next f fs hfs =>
        rw [hfs] at ih
        exact ih

end PromptDoc.Text
