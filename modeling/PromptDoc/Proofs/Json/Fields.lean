import PromptDoc.Json.Codec

/-!
# Fields that read back

What the readers of `PromptDoc.Json.Codec` make of what its writers wrote: a lookup in written
entries (`find?_append` and the lemmas behind it), a field that is looked up, and a list. Together
they give the record lemmas field by field. `RoundTrips` says of a whole type that it reads back.
-/

namespace PromptDoc.Json

variable {α : Type}

/-- Values that fulfil `clean` are read back from what they are written as. Only such values are
read, so what was read once is read back from its written form. -/
structure RoundTrips (clean : α → Prop) (write : α → Value) (read : Value → Option α) : Prop where
  read_write : ∀ x, clean x → read (write x) = some x
  clean_of_read : ∀ v x, read v = some x → clean x
  stable : ∀ v x, read v = some x → read (write x) = some x

/-- Reading back on clean values is enough if only clean values are read. -/
theorem RoundTrips.of {clean : α → Prop} {write : α → Value} {read : Value → Option α}
    (hwrite : ∀ x, clean x → read (write x) = some x)
    (hclean : ∀ v x, read v = some x → clean x) : RoundTrips clean write read :=
  ⟨hwrite, hclean, fun v x h ↦ hwrite x (hclean v x h)⟩

/-! ## Lookups in written entries -/

/-- A key is looked for in the first entries, and then in those behind them. -/
@[simp] theorem find?_append (k : String) (as bs : List (String × Value)) :
    OrderedMap.find? k (as ++ bs) = (OrderedMap.find? k as).or (OrderedMap.find? k bs) := by
  induction as with
  | nil => rfl
  | cons a as ih =>
    by_cases h : a.1 = k
    · simp [OrderedMap.find?, h]
    · simp [OrderedMap.find?, h, ih]

/-- One entry is found under its own key alone. -/
@[simp] theorem find?_entry (k l : String) (v : Value) :
    OrderedMap.find? k (entry l v) = if l = k then some v else none := rfl

/-- Under one of some keys there is no entry that stands under another. -/
theorem find?_entry_of_mem {keys : List String} {k l : String} {v : Value} (hk : k ∈ keys)
    (hl : l ∉ keys) : OrderedMap.find? k (entry l v) = none := by
  rw [find?_entry, if_neg]
  rintro rfl
  exact hl hk

/-- An entry for what is given is found under its own key, if anything is given. -/
@[simp] theorem find?_entryGiven (k l : String) (v : Option Value) :
    OrderedMap.find? k (entryGiven l v) = if l = k then v else none := by
  cases v with
  | none => simp [entryGiven, OrderedMap.find?]
  | some v => rfl

/-- An entry that is left out when empty is found under its own key, unless it is. -/
@[simp] theorem find?_entryUnless (k l : String) (isEmpty : Bool) (v : Value) :
    OrderedMap.find? k (entryUnless isEmpty l v) =
      if l = k then if isEmpty then none else some v else none := by
  cases isEmpty with
  | true => simp [entryUnless, OrderedMap.find?]
  | false => rfl

/-! ## Fields -/

variable {read : Value → Option α} {k : String} {fields : List (String × Value)}

/-- A field that must be given is read from the value under its key. -/
theorem required?_of_find? {x : α} {v : Value} (h : OrderedMap.find? k fields = some v)
    (hread : read v = some x) : required? read k fields = some x := by
  rw [required?, h]
  exact hread

/-- A text that must be given is read back. -/
theorem required?_string {x : String} (h : OrderedMap.find? k fields = some (.string x)) :
    required? Value.string? k fields = some x := required?_of_find? h rfl

/-- A field that is missing is not read if `null` is not. -/
theorem required?_of_find?_none (h : OrderedMap.find? k fields = none) (hnull : read .null = none) :
    required? read k fields = none := by
  rw [required?, h]
  exact hnull

/-- An optional field is read back if what it holds reads back and is not written as `null`, which
stands for a missing one. -/
theorem optional?_of_find? (write : α → Value) {o : Option α}
    (h : OrderedMap.find? k fields = o.map write)
    (hread : ∀ x, o = some x → read (write x) = some x ∧ write x ≠ .null) :
    optional? read k fields = some o := by
  unfold optional?
  rw [h]
  cases o with
  | none => rfl
  | some x =>
    obtain ⟨hx, hnull⟩ := hread x rfl
    rw [Option.map_some]
    split
    · next heq => cases heq
    · next heq => exact absurd (Option.some.inj heq) hnull
    · next heq =>
      rw [← Option.some.inj heq, hx]
      rfl

/-- A field that is left out when empty is read back if the empty value is its default. -/
theorem defaulted?_of_find? {missing x : α} {v : Value} {isEmpty : Bool}
    (h : OrderedMap.find? k fields = if isEmpty then none else some v)
    (hmissing : isEmpty = true → x = missing) (hread : read v = some x) :
    defaulted? read missing k fields = some x := by
  unfold defaulted?
  cases isEmpty with
  | true =>
    rw [h, hmissing rfl]
    rfl
  | false =>
    rw [h]
    exact hread

/-- An optional text is read back. -/
theorem optional?_string {o : Option String}
    (h : OrderedMap.find? k fields = o.map .string) :
    optional? Value.string? k fields = some o :=
  optional?_of_find? .string h fun _ _ ↦ ⟨rfl, Value.noConfusion⟩

/-- An optional map of fields is read back. -/
theorem optional?_fields {o : Option Fields} (h : OrderedMap.find? k fields = o.map .ofFields) :
    optional? Value.fields? k fields = some o :=
  optional?_of_find? .ofFields h fun m _ ↦ ⟨Value.fields?_ofFields m, Value.noConfusion⟩

/-- A field that holds any value is read back unless it holds `null`. -/
theorem optional?_value {o : Option Value} (h : OrderedMap.find? k fields = o)
    (hnull : o ≠ some .null) : optional? some k fields = some o := by
  apply optional?_of_find? id
  · rw [h, Option.map_id_apply]
  · intro v hv
    refine ⟨rfl, fun heq ↦ hnull ?_⟩
    rw [hv]
    exact congrArg some heq

/-- What an optional field holds was read, and not from `null`. -/
theorem exists_of_optional? {x : α} (h : optional? read k fields = some (some x)) :
    ∃ v, v ≠ .null ∧ read v = some x := by
  unfold optional? at h
  split at h
  · cases h
  · cases h
  · next v hnull _ =>
    obtain ⟨y, hy, heq⟩ := Option.map_eq_some_iff.mp h
    cases heq
    exact ⟨v, hnull, hy⟩

/-- What is read from a field that holds any value is not `null`. -/
theorem ne_null_of_optional? {o : Option Value} (h : optional? some k fields = some o) :
    o ≠ some .null := by
  rintro rfl
  obtain ⟨v, hnull, hv⟩ := exists_of_optional? h
  exact hnull (Option.some.inj hv)

/-- A map of fields that is left out when empty is read back. -/
theorem defaulted?_fields {m : Fields}
    (h : OrderedMap.find? k fields = if m.isEmpty then none else some (.ofFields m)) :
    defaulted? Value.fields? ∅ k fields = some m :=
  defaulted?_of_find? h (fun hempty ↦ OrderedMap.ext (List.isEmpty_iff.mp hempty))
    (Value.fields?_ofFields m)

/-- What a field with a default holds is the default or was read. -/
theorem of_defaulted? {missing x : α} (h : defaulted? read missing k fields = some x) :
    x = missing ∨ ∃ v, read v = some x := by
  unfold defaulted? at h
  split at h
  · exact .inl (Option.some.inj h).symm
  · exact .inr ⟨_, h⟩

section append

variable {as rest : List (String × Value)} (h : OrderedMap.find? k rest = none)

include h

/-- Entries under other keys do not matter to a field that must be given. -/
theorem required?_append : required? read k (as ++ rest) = required? read k as := by
  rw [required?, find?_append, h, Option.or_none, required?]

/-- Entries under other keys do not matter to an optional field. -/
theorem optional?_append : optional? read k (as ++ rest) = optional? read k as := by
  rw [optional?, find?_append, h, Option.or_none, optional?]

/-- Entries under other keys do not matter to a field with a default. -/
theorem defaulted?_append {missing : α} :
    defaulted? read missing k (as ++ rest) = defaulted? read missing k as := by
  rw [defaulted?, find?_append, h, Option.or_none, defaulted?]

end append

/-! ## Lists and numbers -/

/-- Items that read back one by one read back together. -/
theorem mapM_map_eq_some {β : Type} {write : α → β} {read : β → Option α} {xs : List α}
    (h : ∀ x ∈ xs, read (write x) = some x) : (xs.map write).mapM read = some xs := by
  induction xs with
  | nil => rfl
  | cons x xs ih =>
    rw [List.map_cons, List.mapM_cons, h x List.mem_cons_self,
      ih fun y hy ↦ h y (List.mem_cons_of_mem x hy)]
    rfl

/-- A list is read back if its items are. -/
theorem list?_map {write : α → Value} {xs : List α} (h : ∀ x ∈ xs, read (write x) = some x) :
    list? read (.array (xs.map write)) = some xs := mapM_map_eq_some h

/-- A list that is left out when empty is read back if its items are. -/
theorem defaulted?_list (write : α → Value) {xs : List α}
    (h : OrderedMap.find? k fields =
      if xs.isEmpty then none else some (.array (xs.map write)))
    (hread : ∀ x ∈ xs, read (write x) = some x) :
    defaulted? (list? read) [] k fields = some xs :=
  defaulted?_of_find? h List.isEmpty_iff.mp (list?_map hread)

/-- Each item of a list was read. -/
theorem exists_of_mem_list? {v : Value} {xs : List α} (h : list? read v = some xs) :
    ∀ x ∈ xs, ∃ w, read w = some x := by
  obtain ⟨items, -, hitems⟩ := Option.bind_eq_some_iff.mp h
  clear h
  induction items generalizing xs with
  | nil =>
    cases hitems
    simp
  | cons item items ih =>
    rw [List.mapM_cons] at hitems
    obtain ⟨y, hy, hrest⟩ := Option.bind_eq_some_iff.mp hitems
    obtain ⟨ys, hys, heq⟩ := Option.bind_eq_some_iff.mp hrest
    cases heq
    intro x hx
    rcases List.mem_cons.mp hx with rfl | hx
    · exact ⟨item, hy⟩
    · exact ih hys x hx

/-- Just the natural numbers below the bound are read. -/
theorem natBelow?_eq_some_iff {bound n : Nat} {v : Value} :
    natBelow? bound v = some n ↔ v = .ofNat n ∧ n < bound := by
  unfold natBelow? Value.ofNat
  split
  · next m =>
    simp only [Option.ite_none_right_eq_some, Option.some.injEq, Value.number.injEq,
      Number.int.injEq]
    omega
  · next hother => exact ⟨fun h ↦ (nomatch h), fun h ↦ absurd h.1 (hother n)⟩

/-- A natural number below the bound is read back. -/
theorem natBelow?_ofNat {bound n : Nat} (h : n < bound) : natBelow? bound (.ofNat n) = some n :=
  natBelow?_eq_some_iff.mpr ⟨rfl, h⟩

end PromptDoc.Json
