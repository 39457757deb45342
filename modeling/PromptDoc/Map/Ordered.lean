/-!
# Insertion-ordered maps

Finite maps with string keys that remember the order in which their keys were first written.
Writing a present key replaces its value in place; a new key goes last. Main statements: how `keys`
and `get?` see each operation, and that a map is determined by its entries, or by its keys with its
lookups (`ext_get?`).
-/

namespace PromptDoc

universe u

/-- A map with string keys in the order of first writing. -/
structure OrderedMap (α : Type u) where
  /-- The entries, in order. -/
  entries : List (String × α)
  /-- No key occurs twice. -/
  nodup : (entries.map Prod.fst).Nodup

namespace OrderedMap

variable {α : Type u}

instance [DecidableEq α] : DecidableEq (OrderedMap α) := fun a b ↦
  decidable_of_iff (a.entries = b.entries) (by cases a; cases b; simp)

/-- The map without entries. -/
def empty : OrderedMap α := ⟨[], .nil⟩

instance : EmptyCollection (OrderedMap α) := ⟨empty⟩

instance : Inhabited (OrderedMap α) := ⟨empty⟩

/-- Write a key in an entry list: in place if it is there, else at the end. -/
def put (k : String) (v : α) : List (String × α) → List (String × α)
  | [] => [(k, v)]
  | e :: es => if e.1 = k then (k, v) :: es else e :: put k v es

/-- The value of the first entry under a key in an entry list. -/
def find? (k : String) : List (String × α) → Option α
  | [] => none
  | e :: es => if e.1 = k then some e.2 else find? k es

/-- The keys, in order. -/
def keys (m : OrderedMap α) : List String := m.entries.map Prod.fst

/-- The value under a key. -/
def get? (m : OrderedMap α) (k : String) : Option α := find? k m.entries

/-- Whether a key is present. -/
def contains (m : OrderedMap α) (k : String) : Bool := (m.get? k).isSome

/-- Whether there is no entry. -/
def isEmpty (m : OrderedMap α) : Bool := m.entries.isEmpty

/-- The number of entries. -/
def size (m : OrderedMap α) : Nat := m.entries.length

private theorem fst_mem_put {k x : String} {v : α} {es : List (String × α)} :
    x ∈ (put k v es).map Prod.fst ↔ x = k ∨ x ∈ es.map Prod.fst := by
  induction es with
  | nil => simp [put]
  | cons e es ih =>
    by_cases h : e.1 = k
    · simp [put, h]
    · simp only [put, h, ↓reduceIte, List.map_cons, List.mem_cons, ih]
      grind

private theorem nodup_put {k : String} {v : α} {es : List (String × α)}
    (h : (es.map Prod.fst).Nodup) : ((put k v es).map Prod.fst).Nodup := by
  induction es with
  | nil => simp [put]
  | cons e es ih =>
    rw [List.map_cons, List.nodup_cons] at h
    by_cases hk : e.1 = k
    · rw [put, if_pos hk, List.map_cons, List.nodup_cons]
      exact ⟨hk ▸ h.1, h.2⟩
    · rw [put, if_neg hk, List.map_cons, List.nodup_cons]
      refine ⟨fun hmem ↦ ?_, ih h.2⟩
      rcases fst_mem_put.mp hmem with heq | hold
      · exact hk heq
      · exact h.1 hold

/-- Write a key: in place if it is present, else at the end. -/
def insert (m : OrderedMap α) (k : String) (v : α) : OrderedMap α :=
  ⟨put k v m.entries, nodup_put m.nodup⟩

/-- Write every entry of a list, in order. -/
def insertMany (m : OrderedMap α) (es : List (String × α)) : OrderedMap α :=
  es.foldl (fun acc e ↦ acc.insert e.1 e.2) m

/-- Write every entry of a second map, in its order. -/
def extend (m other : OrderedMap α) : OrderedMap α := m.insertMany other.entries

/-- The map of an entry list: the last value of each key at the place of its first entry. -/
def ofList (es : List (String × α)) : OrderedMap α := empty.insertMany es

/-- Maps with equal entries are equal. -/
theorem ext {a b : OrderedMap α} (h : a.entries = b.entries) : a = b := by
  cases a; cases b; simpa using h

/-- Only the empty map has no entries. -/
theorem isEmpty_iff {m : OrderedMap α} : m.isEmpty = true ↔ m = ∅ := by
  constructor
  · exact fun h ↦ ext (List.isEmpty_iff.mp h)
  · rintro rfl
    rfl

/-- The empty map has no keys. -/
@[simp] theorem keys_empty : (∅ : OrderedMap α).keys = [] := rfl

/-- The empty map has no values. -/
@[simp] theorem get?_empty (k : String) : (∅ : OrderedMap α).get? k = none := rfl

private theorem find?_put {k x : String} {v : α} {es : List (String × α)} :
    find? x (put k v es) = if x = k then some v else find? x es := by
  induction es with
  | nil => simp [put, find?, eq_comm]
  | cons e es ih =>
    by_cases hk : e.1 = k
    · by_cases hx : x = k
      · simp [put, find?, hk, hx]
      · simp [put, find?, hk, hx, Ne.symm hx]
    · by_cases hx : x = k
      · subst hx
        simp [put, find?, hk, ih]
      · simp [put, find?, hk, hx, ih]

/-- After a write the key has the new value and every other key its old one. -/
theorem get?_insert (m : OrderedMap α) (k x : String) (v : α) :
    (m.insert k v).get? x = if x = k then some v else m.get? x := find?_put

private theorem map_fst_put {k : String} {v : α} {es : List (String × α)} :
    (put k v es).map Prod.fst =
      if k ∈ es.map Prod.fst then es.map Prod.fst else es.map Prod.fst ++ [k] := by
  induction es with
  | nil => simp [put]
  | cons e es ih =>
    by_cases hk : e.1 = k
    · simp [put, hk]
    · rw [put, if_neg hk, List.map_cons, ih, List.map_cons]
      by_cases hmem : k ∈ es.map Prod.fst
      · rw [if_pos hmem, if_pos (List.mem_cons_of_mem _ hmem)]
      · rw [if_neg hmem, if_neg (by grind)]
        rfl

/-- A write keeps the order of the keys and puts a new key last. -/
theorem keys_insert (m : OrderedMap α) (k : String) (v : α) :
    (m.insert k v).keys = if k ∈ m.keys then m.keys else m.keys ++ [k] := map_fst_put

private theorem find?_eq_some_iff_mem {k : String} {v : α} {es : List (String × α)}
    (h : (es.map Prod.fst).Nodup) : find? k es = some v ↔ (k, v) ∈ es := by
  induction es with
  | nil => simp [find?]
  | cons e es ih =>
    rw [List.map_cons, List.nodup_cons] at h
    rw [List.mem_cons, find?]
    by_cases hk : e.1 = k
    · rw [if_pos hk]
      constructor
      · intro heq
        exact .inl (by rw [← hk, ← Option.some.inj heq])
      · rintro (heq | hlater)
        · rw [← heq]
        · exact absurd (List.mem_map_of_mem hlater) (hk ▸ h.1)
    · rw [if_neg hk, ih h.2]
      exact ⟨.inr, fun hmem ↦ hmem.resolve_left fun heq ↦ hk (by rw [← heq])⟩

/-- The entries are the keys with their values. -/
theorem get?_eq_some_iff {m : OrderedMap α} {k : String} {v : α} :
    m.get? k = some v ↔ (k, v) ∈ m.entries := find?_eq_some_iff_mem m.nodup

/-- The keys are those with a value. -/
theorem mem_keys_iff {m : OrderedMap α} {k : String} : k ∈ m.keys ↔ ∃ v, m.get? k = some v := by
  rw [keys, List.mem_map]
  constructor
  · rintro ⟨⟨x, v⟩, hmem, rfl⟩
    exact ⟨v, get?_eq_some_iff.mpr hmem⟩
  · rintro ⟨v, hv⟩
    exact ⟨(k, v), get?_eq_some_iff.mp hv, rfl⟩

private theorem put_of_notMem {k : String} {v : α} {es : List (String × α)}
    (h : k ∉ es.map Prod.fst) : put k v es = es ++ [(k, v)] := by
  induction es with
  | nil => rfl
  | cons e es ih =>
    rw [List.map_cons, List.mem_cons, not_or] at h
    rw [put, if_neg (Ne.symm h.1), ih h.2, List.cons_append]

private theorem entries_insertMany_of_nodup {m : OrderedMap α} {es : List (String × α)}
    (h : ((m.entries ++ es).map Prod.fst).Nodup) : (m.insertMany es).entries = m.entries ++ es := by
  induction es generalizing m with
  | nil => simp [insertMany]
  | cons e es ih =>
    have hk : e.1 ∉ m.entries.map Prod.fst := by
      rw [List.map_append, List.map_cons, List.nodup_append] at h
      exact fun hmem ↦ h.2.2 _ hmem _ (List.mem_cons_self ..) rfl
    have hins : (m.insert e.1 e.2).entries = m.entries ++ [e] := put_of_notMem hk
    have := ih (m := m.insert e.1 e.2) (by rw [hins]; simpa using h)
    rw [hins] at this
    simpa [insertMany] using this

/-- Writing the entries of a map one by one gives the map. -/
theorem ofList_entries (m : OrderedMap α) : ofList m.entries = m :=
  ext (entries_insertMany_of_nodup (m := empty) (by simpa [empty] using m.nodup))

/-- A list of entries with distinct keys is a map as it stands. -/
theorem entries_ofList {es : List (String × α)} (h : (es.map Prod.fst).Nodup) :
    (ofList es).entries = es :=
  entries_insertMany_of_nodup (m := empty) (by simpa [empty] using h)

/-- The order of the entries has no part in what a map holds. -/
theorem get?_of_perm {a b : OrderedMap α} (h : a.entries.Perm b.entries) (k : String) :
    a.get? k = b.get? k := by
  ext v
  rw [get?_eq_some_iff, get?_eq_some_iff, h.mem_iff]

/-- A key that no entry has is not found. -/
theorem find?_eq_none_of_notMem {k : String} {es : List (String × α)}
    (h : k ∉ es.map Prod.fst) : find? k es = none := by
  induction es with
  | nil => rfl
  | cons e es ih =>
    rw [List.map_cons, List.mem_cons, not_or] at h
    rw [find?, if_neg (Ne.symm h.1), ih h.2]

private theorem entries_eq_of_find? : {as bs : List (String × α)} →
    (as.map Prod.fst).Nodup → as.map Prod.fst = bs.map Prod.fst →
    (∀ k, find? k as = find? k bs) → as = bs
  | [], [], _, _, _ => rfl
  | [], _ :: _, _, hkeys, _ => by simp at hkeys
  | _ :: _, [], _, hkeys, _ => by simp at hkeys
  | a :: as, b :: bs, hnodup, hkeys, h => by
    rw [List.map_cons, List.nodup_cons] at hnodup
    rw [List.map_cons, List.map_cons, List.cons.injEq] at hkeys
    have hvalue : a.2 = b.2 := by simpa [find?, hkeys.1] using h a.1
    have hrest : as = bs := by
      apply entries_eq_of_find? hnodup.2 hkeys.2
      intro k
      by_cases hk : a.1 = k
      · subst hk
        rw [find?_eq_none_of_notMem hnodup.1, find?_eq_none_of_notMem (hkeys.2 ▸ hnodup.1)]
      · have hb : b.1 ≠ k := fun heq ↦ hk (hkeys.1.trans heq)
        simpa [find?, hk, hb] using h k
    rw [Prod.ext hkeys.1 hvalue, hrest]

/-- A map is determined by its keys in their order and its lookups. -/
theorem ext_get? {a b : OrderedMap α} (hkeys : a.keys = b.keys) (h : ∀ k, a.get? k = b.get? k) :
    a = b :=
  ext (entries_eq_of_find? a.nodup hkeys h)

/-! ### One map over another -/

private theorem insertMany_cons (m : OrderedMap α) (e : String × α) (es : List (String × α)) :
    m.insertMany (e :: es) = (m.insert e.1 e.2).insertMany es := rfl

/-- What is laid over a map hides its values. -/
theorem get?_extend (m other : OrderedMap α) (k : String) :
    (m.extend other).get? k = (other.get? k).or (m.get? k) := by
  have hwrite {es : List (String × α)} (h : (es.map Prod.fst).Nodup) (m : OrderedMap α) :
      (m.insertMany es).get? k = (find? k es).or (m.get? k) := by
    induction es generalizing m with
    | nil => rfl
    | cons e es ih =>
      rw [List.map_cons, List.nodup_cons] at h
      rw [insertMany_cons, ih h.2, get?_insert, find?]
      by_cases hk : e.1 = k
      · subst hk
        simp [find?_eq_none_of_notMem h.1]
      · simp [hk, Ne.symm hk]
  exact hwrite other.nodup m

/-- What is laid over a map puts its new keys behind the old ones. -/
theorem keys_extend (m other : OrderedMap α) :
    (m.extend other).keys = m.keys ++ other.keys.filter fun k ↦ k ∉ m.keys := by
  have hwrite {es : List (String × α)} (h : (es.map Prod.fst).Nodup) (m : OrderedMap α) :
      (m.insertMany es).keys = m.keys ++ (es.map Prod.fst).filter fun k ↦ k ∉ m.keys := by
    induction es generalizing m with
    | nil => simp [insertMany]
    | cons e es ih =>
      rw [List.map_cons, List.nodup_cons] at h
      rw [insertMany_cons, ih h.2, keys_insert, List.map_cons]
      by_cases hmem : e.1 ∈ m.keys
      · simp [hmem]
      · have hsame : (es.map Prod.fst).filter (fun k ↦ k ∉ m.keys ++ [e.1]) =
            (es.map Prod.fst).filter fun k ↦ k ∉ m.keys := by
          apply List.filter_congr
          intro k hk
          have hne : k ≠ e.1 := fun heq ↦ h.1 (heq ▸ hk)
          simp [hne]
        rw [if_neg hmem, hsame]
        simp [hmem]
  exact hwrite other.nodup m

private theorem eraseDups_of_nodup {ks : List String} (h : ks.Nodup) : ks.eraseDups = ks := by
  induction ks with
  | nil => rfl
  | cons k ks ih =>
    rw [List.nodup_cons] at h
    have hrest : ks.filter (fun x ↦ !x == k) = ks := by
      rw [List.filter_eq_self]
      intro x hx
      have hne : x ≠ k := fun heq ↦ h.1 (heq ▸ hx)
      simp [hne]
    rw [List.eraseDups_cons, hrest, ih h.2]

/-- No key of a map comes twice. -/
theorem eraseDups_keys (m : OrderedMap α) : m.keys.eraseDups = m.keys := eraseDups_of_nodup m.nodup

/-- The keys of a map laid over another stand in the order in which they first come. -/
theorem eraseDups_append_keys {m : OrderedMap α} {ks : List String} (h : ks.eraseDups = m.keys)
    (other : OrderedMap α) : (ks ++ other.keys).eraseDups = (m.extend other).keys := by
  have hnew : other.keys.removeAll ks = other.keys.filter fun k ↦ k ∉ m.keys := by
    apply List.filter_congr
    intro k _
    have hmem : k ∈ ks ↔ k ∈ m.keys := by rw [← h, List.mem_eraseDups]
    simp [← hmem]
  have hnodup : (other.keys.filter fun k ↦ k ∉ m.keys).Nodup := other.nodup.filter _
  rw [List.eraseDups_append, h, hnew, eraseDups_of_nodup hnodup, keys_extend]

/-- Of three maps laid over one another the upper two can be put together first. -/
theorem extend_extend (a b c : OrderedMap α) : (a.extend b).extend c = a.extend (b.extend c) := by
  apply ext_get?
  · simp only [keys_extend, List.filter_append, List.filter_filter, List.append_assoc]
    congr 2
    apply List.filter_congr
    intro k _
    by_cases ha : k ∈ a.keys <;> by_cases hb : k ∈ b.keys <;> simp [ha, hb]
  · intro k
    rw [get?_extend, get?_extend, get?_extend, get?_extend, Option.or_assoc]

/-- A map is not changed by being laid over one whose keys it begins with. -/
theorem extend_eq_of_prefix {m other : OrderedMap α} (h : m.keys <+: other.keys) :
    m.extend other = other := by
  obtain ⟨rest, hrest⟩ := h
  apply ext_get?
  · have hnodup : (m.keys ++ rest).Nodup := hrest ▸ other.nodup
    have hold : m.keys.filter (fun k ↦ k ∉ m.keys) = [] := by
      rw [List.filter_eq_nil_iff]
      intro k hk
      simpa using hk
    have hnew : rest.filter (fun k ↦ k ∉ m.keys) = rest := by
      rw [List.filter_eq_self]
      intro k hk
      have habsent : k ∉ m.keys := fun hmem ↦ (List.nodup_append.mp hnodup).2.2 k hmem k hk rfl
      simpa using habsent
    rw [keys_extend, ← hrest, List.filter_append, hold, hnew, List.nil_append]
  · intro k
    rw [get?_extend]
    cases hother : other.get? k with
    | some v => rfl
    | none =>
      have habsent : k ∉ m.keys := by
        intro hk
        have hmem : k ∈ other.keys := hrest ▸ List.mem_append_left rest hk
        obtain ⟨v, hv⟩ := mem_keys_iff.mp hmem
        simp [hother] at hv
      rw [Option.none_or, Option.eq_none_iff_forall_ne_some]
      exact fun v hv ↦ habsent (mem_keys_iff.mpr ⟨v, hv⟩)

end OrderedMap

end PromptDoc
