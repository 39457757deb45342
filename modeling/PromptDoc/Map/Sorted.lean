/-!
# Sorted maps

Finite maps whose entries are kept in ascending key order, so that a map is determined by its
lookups and not by how it was built. Main statements: how `get?` sees each operation (`get?_insert`,
`get?_erase`), and that maps with equal lookups are equal (`ext_get?`).
-/

namespace PromptDoc

universe u v

/-- Texts are compared in their order, by code points. -/
theorem compare_string_eq_lt {a b : String} : compare a b = .lt ↔ a < b := by
  show compareOfLessAndEq a b = .lt ↔ a < b
  unfold compareOfLessAndEq
  by_cases hlt : a < b
  · simp [hlt]
  · by_cases heq : a = b <;> simp [hlt, heq]

/-- A map with its entries in ascending order of their keys. -/
structure SortedMap (κ : Type u) (α : Type v) [Ord κ] where
  /-- The entries, in ascending key order. -/
  entries : List (κ × α)
  /-- Each key is below the keys behind it. -/
  ascending : entries.Pairwise fun a b ↦ compare a.1 b.1 = .lt

namespace SortedMap

variable {κ : Type u} {α : Type v} [Ord κ]

instance [DecidableEq κ] [DecidableEq α] : DecidableEq (SortedMap κ α) := fun a b ↦
  decidable_of_iff (a.entries = b.entries) (by cases a; cases b; simp)

/-- The map without entries. -/
def empty : SortedMap κ α := ⟨[], .nil⟩

instance : EmptyCollection (SortedMap κ α) := ⟨empty⟩

instance : Inhabited (SortedMap κ α) := ⟨empty⟩

/-- Write a key in an ascending entry list, replacing its entry if there is one. -/
def place (k : κ) (v : α) : List (κ × α) → List (κ × α)
  | [] => [(k, v)]
  | e :: es =>
    match compare k e.1 with
    | .lt => (k, v) :: e :: es
    | .eq => (k, v) :: es
    | .gt => e :: place k v es

/-- The value of the first entry under a key in an entry list. -/
def find? (k : κ) : List (κ × α) → Option α
  | [] => none
  | e :: es => if compare k e.1 = .eq then some e.2 else find? k es

/-- The keys, ascending. -/
def keys (m : SortedMap κ α) : List κ := m.entries.map Prod.fst

/-- The value under a key. -/
def get? (m : SortedMap κ α) (k : κ) : Option α := find? k m.entries

/-- Whether a key is present. -/
def contains (m : SortedMap κ α) (k : κ) : Bool := (m.get? k).isSome

/-- Whether there is no entry. -/
def isEmpty (m : SortedMap κ α) : Bool := m.entries.isEmpty

/-- The number of entries. -/
def size (m : SortedMap κ α) : Nat := m.entries.length

/-- Remove a key. -/
def erase (m : SortedMap κ α) (k : κ) : SortedMap κ α :=
  ⟨m.entries.filter fun e ↦ compare k e.1 != .eq, m.ascending.filter _⟩

private theorem mem_place {k : κ} {v : α} {x : κ × α} {es : List (κ × α)}
    (h : x ∈ place k v es) : x = (k, v) ∨ x ∈ es := by
  induction es with
  | nil => simpa [place] using h
  | cons e es ih =>
    rw [place] at h
    split at h <;> grind

private theorem ascending_place [Std.TransOrd κ] {k : κ} {v : α} {es : List (κ × α)}
    (h : es.Pairwise fun a b ↦ compare a.1 b.1 = .lt) :
    (place k v es).Pairwise fun a b ↦ compare a.1 b.1 = .lt := by
  induction es with
  | nil => simp [place]
  | cons e es ih =>
    rw [List.pairwise_cons] at h
    rw [place]
    split
    next hlt =>
      refine List.pairwise_cons.mpr ⟨fun x hx ↦ ?_, List.pairwise_cons.mpr h⟩
      rcases List.mem_cons.mp hx with rfl | hx
      · exact hlt
      · exact Std.TransCmp.lt_trans hlt (h.1 x hx)
    next heq =>
      exact List.pairwise_cons.mpr
        ⟨fun x hx ↦ Std.TransCmp.lt_of_eq_of_lt heq (h.1 x hx), h.2⟩
    next hgt =>
      refine List.pairwise_cons.mpr ⟨fun x hx ↦ ?_, ih h.2⟩
      rcases mem_place hx with rfl | hx
      · exact Std.OrientedCmp.lt_of_gt hgt
      · exact h.1 x hx

/-- Write a key. -/
def insert [Std.TransOrd κ] (m : SortedMap κ α) (k : κ) (v : α) : SortedMap κ α :=
  ⟨place k v m.entries, ascending_place m.ascending⟩

/-- The map of an entry list, in which the last entry of a key counts. -/
def ofList [Std.TransOrd κ] (es : List (κ × α)) : SortedMap κ α :=
  es.foldl (fun m e ↦ m.insert e.1 e.2) empty

/-- Maps with equal entries are equal. -/
theorem ext {a b : SortedMap κ α} (h : a.entries = b.entries) : a = b := by
  cases a; cases b; simpa using h

/-- The empty map has no values. -/
@[simp] theorem get?_empty (k : κ) : (∅ : SortedMap κ α).get? k = none := rfl

private theorem find?_place [Std.LawfulEqOrd κ] {k x : κ} {v : α} {es : List (κ × α)} :
    find? x (place k v es) = if compare x k = .eq then some v else find? x es := by
  induction es with
  | nil => simp [place, find?]
  | cons e es ih =>
    rw [place]
    split
    next hlt => simp only [find?]
    next heq =>
      have hk := Std.LawfulEqCmp.eq_of_compare heq
      by_cases hx : compare x k = .eq
      · simp [find?, hx]
      · simp [find?, ← hk, hx]
    next hgt =>
      by_cases hx : compare x k = .eq
      · have := Std.LawfulEqCmp.eq_of_compare hx
        subst this
        simp [find?, hgt, ih]
      · simp [find?, hx, ih]

/-- After a write the key has the new value and every other key its old one. -/
theorem get?_insert [Std.TransOrd κ] [Std.LawfulEqOrd κ] (m : SortedMap κ α) (k x : κ) (v : α) :
    (m.insert k v).get? x = if compare x k = .eq then some v else m.get? x := find?_place

private theorem find?_filter_ne [Std.LawfulEqOrd κ] {k x : κ} {es : List (κ × α)} :
    find? x (es.filter fun e ↦ compare k e.1 != .eq) =
      if compare x k = .eq then none else find? x es := by
  induction es with
  | nil => simp [find?]
  | cons e es ih =>
    by_cases he : compare k e.1 = .eq
    · have hk := Std.LawfulEqCmp.eq_of_compare he
      by_cases hx : compare x k = .eq
      · simp [he, ih, hx]
      · simp [ih, hx, find?, ← hk]
    · by_cases hx : compare x k = .eq
      · have := Std.LawfulEqCmp.eq_of_compare hx
        subst this
        simp [he, ih, find?]
      · simp [he, ih, hx, find?]

/-- After a removal the key has no value and every other key its old one. -/
theorem get?_erase [Std.LawfulEqOrd κ] (m : SortedMap κ α) (k x : κ) :
    (m.erase k).get? x = if compare x k = .eq then none else m.get? x := find?_filter_ne

private theorem find?_eq_none_of_lt {k : κ} {es : List (κ × α)}
    (h : ∀ e ∈ es, compare k e.1 = .lt) : find? k es = none := by
  induction es with
  | nil => rfl
  | cons e es ih =>
    rw [find?, if_neg (by simp [h e (List.mem_cons_self ..)])]
    exact ih fun x hx ↦ h x (List.mem_cons_of_mem _ hx)

private theorem entries_eq_of_find? [Std.TransOrd κ] [Std.LawfulEqOrd κ] : {as bs : List (κ × α)} →
    as.Pairwise (fun a b ↦ compare a.1 b.1 = .lt) →
    bs.Pairwise (fun a b ↦ compare a.1 b.1 = .lt) →
    (∀ k, find? k as = find? k bs) → as = bs
  | [], [], _, _, _ => rfl
  | [], b :: bs, _, _, h => by simpa [find?] using h b.1
  | a :: as, [], _, _, h => by simpa [find?] using h a.1
  | a :: as, b :: bs, ha, hb, h => by
    rw [List.pairwise_cons] at ha hb
    have hkey : compare a.1 b.1 = .eq := by
      cases hab : compare a.1 b.1 with
      | eq => rfl
      | lt =>
        have := h a.1
        rw [find?, if_pos (by simp), find?_eq_none_of_lt] at this
        · simp at this
        · intro x hx
          rcases List.mem_cons.mp hx with rfl | hx
          · exact hab
          · exact Std.TransCmp.lt_trans hab (hb.1 x hx)
      | gt =>
        have hba := Std.OrientedCmp.lt_of_gt hab
        have := h b.1
        rw [find?_eq_none_of_lt, find?, if_pos (by simp)] at this
        · simp at this
        · intro x hx
          rcases List.mem_cons.mp hx with rfl | hx
          · exact hba
          · exact Std.TransCmp.lt_trans hba (ha.1 x hx)
    have hk := Std.LawfulEqCmp.eq_of_compare hkey
    have hval : a.2 = b.2 := by simpa [find?, hkey] using h a.1
    have hhead : a = b := Prod.ext hk hval
    subst hhead
    rw [entries_eq_of_find? ha.2 hb.2]
    intro k
    by_cases hlt : compare k a.1 = .eq
    · have hka := Std.LawfulEqCmp.eq_of_compare hlt
      subst hka
      rw [find?_eq_none_of_lt ha.1, find?_eq_none_of_lt hb.1]
    · simpa [find?, hlt] using h k

private theorem find?_eq_some_iff_mem [Std.TransOrd κ] [Std.LawfulEqOrd κ] {k : κ} {v : α}
    {es : List (κ × α)} (h : es.Pairwise fun a b ↦ compare a.1 b.1 = .lt) :
    find? k es = some v ↔ (k, v) ∈ es := by
  induction es with
  | nil => simp [find?]
  | cons e es ih =>
    rw [List.pairwise_cons] at h
    rw [find?, List.mem_cons]
    by_cases hk : compare k e.1 = .eq
    · have hke := Std.LawfulEqCmp.eq_of_compare hk
      have habsent : (k, v) ∉ es := by
        intro hmem
        have hlt := h.1 _ hmem
        rw [← hke, Std.compare_self] at hlt
        cases hlt
      rw [if_pos hk, or_iff_left habsent, Option.some.injEq]
      exact ⟨fun hv ↦ Prod.ext hke hv.symm, fun he ↦ (congrArg Prod.snd he).symm⟩
    · have hne : (k, v) ≠ e := by
        rintro rfl
        exact hk Std.compare_self
      rw [if_neg hk, ih h.2, or_iff_right hne]

/-- The entries are the keys with their values. -/
theorem get?_eq_some_iff [Std.TransOrd κ] [Std.LawfulEqOrd κ] {m : SortedMap κ α} {k : κ} {v : α} :
    m.get? k = some v ↔ (k, v) ∈ m.entries := find?_eq_some_iff_mem m.ascending

/-- The keys are those with a value. -/
theorem mem_keys_iff [Std.TransOrd κ] [Std.LawfulEqOrd κ] {m : SortedMap κ α} {k : κ} :
    k ∈ m.keys ↔ ∃ v, m.get? k = some v := by
  rw [keys, List.mem_map]
  constructor
  · rintro ⟨⟨x, v⟩, hmem, rfl⟩
    exact ⟨v, get?_eq_some_iff.mpr hmem⟩
  · rintro ⟨v, hv⟩
    exact ⟨(k, v), get?_eq_some_iff.mp hv, rfl⟩

/-- The keys stand in ascending order. -/
theorem ascending_keys (m : SortedMap κ α) : m.keys.Pairwise fun a b ↦ compare a b = .lt :=
  List.pairwise_map.mpr m.ascending

/-- The keys ascend in the order of texts. -/
theorem pairwise_keys {α : Type u} (m : SortedMap String α) : m.keys.Pairwise (· < ·) :=
  m.ascending_keys.imp compare_string_eq_lt.mp

/-- After a write the key is there beside the old ones. -/
theorem mem_keys_insert [Std.TransOrd κ] [Std.LawfulEqOrd κ] {m : SortedMap κ α} {k x : κ} {v : α} :
    x ∈ (m.insert k v).keys ↔ x = k ∨ x ∈ m.keys := by
  rw [mem_keys_iff, mem_keys_iff, get?_insert]
  split
  · next heq => simp [Std.LawfulEqCmp.eq_of_compare heq]
  · next hne =>
    rw [or_iff_right]
    rintro rfl
    exact hne Std.ReflCmp.compare_self

private theorem place_of_above [Std.TransOrd κ] {k : κ} {v : α} {es : List (κ × α)}
    (h : ∀ e ∈ es, compare e.1 k = .lt) : place k v es = es ++ [(k, v)] := by
  induction es with
  | nil => rfl
  | cons e es ih =>
    have hgt : compare k e.1 = .gt := Std.OrientedCmp.gt_of_lt (h e List.mem_cons_self)
    rw [place, hgt, ih fun x hx ↦ h x (List.mem_cons_of_mem e hx), List.cons_append]

private theorem entries_foldl_insert [Std.TransOrd κ] {m : SortedMap κ α} {es : List (κ × α)}
    (h : (m.entries ++ es).Pairwise fun a b ↦ compare a.1 b.1 = .lt) :
    (es.foldl (fun m e ↦ m.insert e.1 e.2) m).entries = m.entries ++ es := by
  induction es generalizing m with
  | nil => simp
  | cons e es ih =>
    have habove : ∀ x ∈ m.entries, compare x.1 e.1 = .lt := fun x hx ↦
      (List.pairwise_append.mp h).2.2 x hx e List.mem_cons_self
    have hinsert : (m.insert e.1 e.2).entries = m.entries ++ [e] := place_of_above habove
    rw [List.foldl_cons, ih (by simpa [hinsert] using h), hinsert, List.append_assoc,
      List.singleton_append]

/-- The entries of a map make the map again. -/
theorem ofList_entries [Std.TransOrd κ] (m : SortedMap κ α) : ofList m.entries = m :=
  ext (entries_foldl_insert (m := empty) (by simpa [empty] using m.ascending))

/-- A map is determined by its lookups. -/
theorem ext_get? [Std.TransOrd κ] [Std.LawfulEqOrd κ] {a b : SortedMap κ α}
    (h : ∀ k, a.get? k = b.get? k) : a = b :=
  ext (entries_eq_of_find? a.ascending b.ascending h)

end SortedMap

end PromptDoc
