import Mathlib.Data.List.Sort
import PromptDoc.FrontMatter.Routing
import PromptDoc.Proofs.Json.RoundTrip

/-!
# Where the entries of front matter go

Every key of front matter has one place in the metadata, whatever stands beside it: a key with a
typed home is read there, a dotted key names one field of one namespace, and no entry is seen by the
place of another. Main statement: what stands in each place, and that the order of the entries shows
in nothing but orders (`metadata_routes`).
-/

namespace PromptDoc.FrontMatter

open Json

/-- The key of a field in a namespace. -/
def dotted (space field : String) : String := space ++ "." ++ field

/-- What front matter makes of its dotted keys. -/
structure Extends (raw : Fields) (ext : SortedMap String Fields) : Prop where
  /-- A field of a namespace is what stands under the dotted key of the two. -/
  look_up : ∀ space field v, (ext.get? space).bind (·.get? field) = some v ↔
    '.' ∉ field.toList ∧ space ∉ reserved ∧ raw.get? (dotted space field) = some v
  /-- No two keys share a field of a namespace. -/
  apart : ∀ k l p, extensionKey? k = some p → extensionKey? l = some p → k = l
  unreserved : ∀ space ∈ ext.keys, space ∉ reserved
  inhabited : ∀ space fields, ext.get? space = some fields → fields ≠ ∅
  /-- The fields of a namespace stand in the order of their dotted keys. -/
  in_order : ∀ space fields, ext.get? space = some fields →
    (fields.keys.map (dotted space)).Sublist raw.keys

/-- A field of the metadata has its home under a key. What stands there is read if it has the right
shape, else the field is left as it was, and nothing else in the front matter matters to it. -/
structure HomeOf {α : Type} (raw : Fields) (key : String) (fits : Value → α → Prop)
    (home : PromptMetadata → α) : Prop where
  fitting : ∀ v a, raw.get? key = some v → fits v a → home (metadata raw) = a
  unfit : (∀ v a, raw.get? key = some v → ¬fits v a) → home (metadata raw) = home {}
  alone : ∀ other : Fields, raw.get? key = other.get? key →
    home (metadata raw) = home (metadata other)

/-- A value is a text. -/
def IsText (v : Value) (a : Option String) : Prop := ∃ s, v = .string s ∧ a = some s

/-- A value is a whole number of at most 32 bits. -/
def IsTurns (v : Value) (a : Option UInt32) : Prop := ∃ n : UInt32, v = .ofNat n.toNat ∧ a = some n

/-- A value is a list, of whose items only those count that can be read. -/
def IsList {α : Type} (read : Value → Option α) (v : Value) (a : List α) : Prop :=
  ∃ items, v = .array items ∧ a = items.filterMap read

/-- A value is a record. -/
def IsRecord {α : Type} (make : Fields → α) (v : Value) (a : α) : Prop :=
  ∃ entries, v = .object entries ∧ a = make (.ofList entries)

/-- Every field with a home has it under its own key. -/
structure TypedHomes (raw : Fields) : Prop where
  name : HomeOf raw "name" IsText (·.name)
  variant : HomeOf raw "variant" IsText (·.variant)
  version : HomeOf raw "version" IsText (·.version)
  description : HomeOf raw "description" IsText (·.description)
  model : HomeOf raw "model" IsText (·.model)
  maxTurns : HomeOf raw "maxTurns" IsTurns (·.maxTurns)
  tools : HomeOf raw "tools" (IsList Value.string?) (·.tools)
  toolDefs : HomeOf raw "toolDefs" (IsList toolDefinition) (·.toolDefs)
  config : HomeOf raw "config" (IsRecord id) (·.config)
  input : HomeOf raw "input" (IsRecord (some ∘ promptInput)) (·.input)
  output : HomeOf raw "output" (IsRecord (some ∘ promptOutput)) (·.output)

/-- The entries are the same, in whatever order. -/
def SameEntries (a b : Fields) : Prop := a.entries.Perm b.entries

/-- Metadata that are the same but for the orders inside `raw` and inside the namespaces. -/
structure SameButOrder (a b : PromptMetadata) : Prop where
  others : { a with raw := none, ext := ∅ } = { b with raw := none, ext := ∅ }
  raw : Option.Rel SameEntries a.raw b.raw
  spaces : a.ext.keys = b.ext.keys
  fields : ∀ space, Option.Rel SameEntries (a.ext.get? space) (b.ext.get? space)

/-! ### One pass over the entries -/

/-- The extensions among the entries of the front matter. -/
def extensions (raw : Fields) : SortedMap String Fields :=
  raw.entries.foldl addExtension ∅

/-- What is in the places of metadata after an entry is put in its place. -/
structure Placed (m out : PromptMetadata) (k : String) (v : Value) : Prop where
  name : out.name = if k = "name" then v.string? else m.name
  variant : out.variant = if k = "variant" then v.string? else m.variant
  version : out.version = if k = "version" then v.string? else m.version
  description : out.description = if k = "description" then v.string? else m.description
  model : out.model = if k = "model" then v.string? else m.model
  maxTurns : out.maxTurns = if k = "maxTurns" then turns? v else m.maxTurns
  tools : out.tools =
    if k = "tools" then (v.items?.map (·.filterMap Value.string?)).getD m.tools else m.tools
  toolDefs : out.toolDefs =
    if k = "toolDefs" then (v.items?.map (·.filterMap toolDefinition)).getD m.toolDefs
    else m.toolDefs
  config : out.config = if k = "config" then v.fields?.getD m.config else m.config
  input : out.input = if k = "input" then v.fields?.map promptInput else m.input
  output : out.output = if k = "output" then v.fields?.map promptOutput else m.output
  ext : out.ext = addExtension m.ext (k, v)
  metadata : out.metadata = m.metadata

/-- A key with a typed home is no extension. -/
theorem addExtension_of_isReserved {k : String} (h : isReserved k = true)
    (ext : SortedMap String Fields) (v : Value) : addExtension ext (k, v) = ext := by
  rw [addExtension, extensionKey?, if_pos h]

/-- An entry is put in the place of its key and changes no other. -/
theorem placed_place (m : PromptMetadata) (k : String) (v : Value) :
    Placed m (place m (k, v)) k v := by
  unfold place
  split <;> constructor <;> simp_all [addExtension_of_isReserved, isReserved, reserved]

/-- A field that entries write under one key alone holds what the entry of that key writes, whatever
stands around it. The keys are distinct, so there is one such entry at most. -/
theorem foldl_place_eq {α : Type} (home : PromptMetadata → α) (write : Value → α → α) {key : String}
    (h : ∀ m k v, home (place m (k, v)) = if k = key then write v (home m) else home m)
    (raw : Fields) (m : PromptMetadata) :
    home (raw.entries.foldl place m) = ((raw.get? key).map (write · (home m))).getD (home m) := by
  have hnodup := raw.nodup
  rw [OrderedMap.get?]
  generalize raw.entries = entries at hnodup
  induction entries generalizing m with
  | nil => rfl
  | cons e entries ih =>
    obtain ⟨k, v⟩ := e
    rw [List.map_cons, List.nodup_cons] at hnodup
    rw [List.foldl_cons, ih (place m (k, v)) hnodup.2, h, OrderedMap.find?]
    by_cases hk : k = key
    · subst hk
      rw [OrderedMap.find?_eq_none_of_notMem hnodup.1, if_pos rfl, if_pos rfl]
      rfl
    · rw [if_neg hk, if_neg hk]

section lookups

variable {α : Type} {key : String} {read : Value → Option α}

/-- A field that is written in any case holds what is read under its key. -/
theorem foldl_place_of_read (home : PromptMetadata → Option α) (hdefault : home {} = none)
    (h : ∀ m k v, home (place m (k, v)) = if k = key then read v else home m) (raw : Fields) :
    home (raw.entries.foldl place {}) = (raw.get? key).bind read := by
  rw [foldl_place_eq home (fun v _ ↦ read v) h, hdefault]
  cases raw.get? key <;> rfl

/-- A field that is written when the value fits holds what is read under its key, else what was
there. -/
theorem foldl_place_of_fitting (home : PromptMetadata → α)
    (h : ∀ m k v, home (place m (k, v)) = if k = key then (read v).getD (home m) else home m)
    (raw : Fields) :
    home (raw.entries.foldl place {}) = ((raw.get? key).bind read).getD (home {}) := by
  rw [foldl_place_eq home (fun v old ↦ (read v).getD old) h]
  cases raw.get? key <;> rfl

end lookups

/-- The extensions are written along the way. -/
theorem ext_foldl_place (entries : List (String × Value)) (m : PromptMetadata) :
    (entries.foldl place m).ext = entries.foldl addExtension m.ext := by
  induction entries generalizing m with
  | nil => rfl
  | cons e entries ih =>
    rw [List.foldl_cons, List.foldl_cons, ih, (placed_place m e.1 e.2).ext]

/-- Nothing is written where no key has its home. -/
theorem metadata_foldl_place (entries : List (String × Value)) (m : PromptMetadata) :
    (entries.foldl place m).metadata = m.metadata := by
  induction entries generalizing m with
  | nil => rfl
  | cons e entries ih => rw [List.foldl_cons, ih, (placed_place m e.1 e.2).metadata]

/-- What the pass over the entries comes to: every typed home is read under its own key. -/
theorem metadata_eq (raw : Fields) :
    metadata raw =
      { name := (raw.get? "name").bind Value.string?
        variant := (raw.get? "variant").bind Value.string?
        version := (raw.get? "version").bind Value.string?
        description := (raw.get? "description").bind Value.string?
        model := (raw.get? "model").bind Value.string?
        maxTurns := (raw.get? "maxTurns").bind turns?
        tools := ((raw.get? "tools").bind fun v ↦
          v.items?.map (·.filterMap Value.string?)).getD []
        toolDefs := ((raw.get? "toolDefs").bind fun v ↦
          v.items?.map (·.filterMap toolDefinition)).getD []
        config := ((raw.get? "config").bind Value.fields?).getD ∅
        input := (raw.get? "input").bind fun v ↦ v.fields?.map promptInput
        output := (raw.get? "output").bind fun v ↦ v.fields?.map promptOutput
        raw := some raw
        ext := extensions raw
        metadata := none } := by
  have hname := foldl_place_of_read (·.name) rfl (fun m k v ↦ (placed_place m k v).name) raw
  have hvariant :=
    foldl_place_of_read (·.variant) rfl (fun m k v ↦ (placed_place m k v).variant) raw
  have hversion :=
    foldl_place_of_read (·.version) rfl (fun m k v ↦ (placed_place m k v).version) raw
  have hdescription :=
    foldl_place_of_read (·.description) rfl (fun m k v ↦ (placed_place m k v).description) raw
  have hmodel := foldl_place_of_read (·.model) rfl (fun m k v ↦ (placed_place m k v).model) raw
  have hturns :=
    foldl_place_of_read (·.maxTurns) rfl (fun m k v ↦ (placed_place m k v).maxTurns) raw
  have htools := foldl_place_of_fitting (·.tools) (fun m k v ↦ (placed_place m k v).tools) raw
  have htoolDefs :=
    foldl_place_of_fitting (·.toolDefs) (fun m k v ↦ (placed_place m k v).toolDefs) raw
  have hconfig := foldl_place_of_fitting (·.config) (fun m k v ↦ (placed_place m k v).config) raw
  have hinput := foldl_place_of_read (·.input) rfl (fun m k v ↦ (placed_place m k v).input) raw
  have houtput := foldl_place_of_read (·.output) rfl (fun m k v ↦ (placed_place m k v).output) raw
  simp only [metadata, hname, hvariant, hversion, hdescription, hmodel, hturns, htools, htoolDefs,
    hconfig, hinput, houtput, ext_foldl_place, metadata_foldl_place]
  rfl

/-! ### Extension keys -/

/-- A dotted key is written as its namespace, a dot and its field. -/
theorem toList_dotted (space field : String) :
    (dotted space field).toList = space.toList ++ '.' :: field.toList := by
  simp [dotted]

/-- No key with a typed home has a dot in it. -/
theorem dotted_notMem_reserved (space field : String) : dotted space field ∉ reserved := by
  intro hmem
  have hdotless : ∀ k ∈ reserved, '.' ∉ k.toList := by decide
  apply hdotless _ hmem
  rw [toList_dotted]
  exact List.mem_append_right _ List.mem_cons_self

/-- The check for reserved words is membership in their list. -/
theorem isReserved_eq_true_iff {k : String} : isReserved k = true ↔ k ∈ reserved :=
  List.contains_iff_mem

/-- An extension key is cut at its last dot. -/
theorem extensionKey?_eq_some_iff {k space field : String} :
    extensionKey? k = some (space, field) ↔
      k = dotted space field ∧ '.' ∉ field.toList ∧ space ∉ reserved := by
  constructor
  · intro h
    unfold extensionKey? at h
    split at h
    · cases h
    obtain ⟨⟨before, rest⟩, hcut, hspace⟩ := Option.bind_eq_some_iff.mp h
    obtain ⟨hk, hrest⟩ := Text.cutLast?_eq_some_iff.mp hcut
    obtain ⟨hreserved, heq⟩ := Option.ite_none_left_eq_some.mp hspace
    cases heq
    rw [isReserved_eq_true_iff] at hreserved
    refine ⟨String.toList_inj.mp ?_, by rwa [String.toList_ofList], hreserved⟩
    rw [toList_dotted, String.toList_ofList, String.toList_ofList, hk]
  · rintro ⟨rfl, hfield, hspace⟩
    have hcut : Text.cutLast? '.' (dotted space field).toList = some (space.toList, field.toList) :=
      Text.cutLast?_eq_some_iff.mpr ⟨toList_dotted space field, hfield⟩
    rw [← isReserved_eq_true_iff] at hspace
    -- The look at the whole key refuses no dotted key.
    rw [extensionKey?, if_neg (isReserved_eq_true_iff.not.mpr (dotted_notMem_reserved space field)),
      hcut, Option.bind_some]
    simp only [String.ofList_toList, hspace, Bool.false_eq_true, ↓reduceIte]

/-! ### The fields of one namespace -/

/-- The field of a namespace that an entry of front matter gives. -/
def fieldOf? (space : String) (e : String × Value) : Option (String × Value) :=
  (extensionKey? e.1).bind fun p ↦ if p.1 = space then some (p.2, e.2) else none

/-- The fields of a namespace among the entries of front matter. -/
def fieldsOf (space : String) (entries : List (String × Value)) : List (String × Value) :=
  entries.filterMap (fieldOf? space)

/-- A namespace after some fields were written. It is made when the first one is. -/
def grown (old : Option Fields) (fields : List (String × Value)) : Option Fields :=
  if fields = [] then old else some ((old.getD ∅).insertMany fields)

/-- Fields that are written after others are written behind them. -/
theorem grown_grown (old : Option Fields) (fields more : List (String × Value)) :
    grown (grown old fields) more = grown old (fields ++ more) := by
  cases fields with
  | nil => rfl
  | cons f fields =>
    cases more with
    | nil => rw [List.append_nil, grown, if_pos rfl]
    | cons g more => simp [grown, OrderedMap.insertMany]

/-- The fields of a namespace are collected entry by entry. -/
theorem fieldsOf_cons (space : String) (e : String × Value) (entries : List (String × Value)) :
    fieldsOf space (e :: entries) = (fieldOf? space e).toList ++ fieldsOf space entries := by
  rw [fieldsOf, List.filterMap_cons]
  cases fieldOf? space e <;> rfl

/-- An entry gives a field to a namespace that is not reserved if its key is the two with a dot
between them, and the field has no dot of its own. -/
theorem fieldOf?_eq_some_iff {space field : String} {e : String × Value} {v : Value} :
    fieldOf? space e = some (field, v) ↔
      e = (dotted space field, v) ∧ '.' ∉ field.toList ∧ space ∉ reserved := by
  obtain ⟨k, w⟩ := e
  rw [fieldOf?, Option.bind_eq_some_iff]
  constructor
  · rintro ⟨⟨space', field'⟩, hkey, hfield⟩
    obtain ⟨rfl, heq⟩ := Option.ite_none_right_eq_some.mp hfield
    cases heq
    obtain ⟨rfl, hrest⟩ := extensionKey?_eq_some_iff.mp hkey
    exact ⟨rfl, hrest⟩
  · rintro ⟨heq, hrest⟩
    cases heq
    exact ⟨(space, field), extensionKey?_eq_some_iff.mpr ⟨rfl, hrest⟩, if_pos rfl⟩

/-- One entry writes into its own namespace if it has one, and into no other. -/
theorem get?_addExtension (ext : SortedMap String Fields) (e : String × Value) (space : String) :
    (addExtension ext e).get? space = grown (ext.get? space) (fieldOf? space e).toList := by
  unfold addExtension fieldOf?
  cases hkey : extensionKey? e.1 with
  | none => rfl
  | some p =>
    obtain ⟨own, field⟩ := p
    simp only [Option.bind_some, SortedMap.get?_insert, Std.compare_eq_iff_eq]
    by_cases hspace : space = own
    · subst hspace
      simp [grown, OrderedMap.insertMany]
    · simp [hspace, Ne.symm hspace, grown]

/-- Some entries write their fields into the namespaces one after the other. -/
theorem get?_foldl_addExtension (entries : List (String × Value)) (ext : SortedMap String Fields)
    (space : String) :
    (entries.foldl addExtension ext).get? space =
      grown (ext.get? space) (fieldsOf space entries) := by
  induction entries generalizing ext with
  | nil => rfl
  | cons e entries ih =>
    rw [List.foldl_cons, ih, get?_addExtension, grown_grown, fieldsOf_cons]

/-- The dotted keys of the fields of a namespace are among the keys, in their order. -/
theorem map_dotted_fieldsOf_sublist (space : String) (entries : List (String × Value)) :
    ((fieldsOf space entries).map fun f ↦ dotted space f.1).Sublist (entries.map Prod.fst) := by
  induction entries with
  | nil => exact .slnil
  | cons e entries ih =>
    rw [fieldsOf_cons, List.map_cons]
    cases hfield : fieldOf? space e with
    | none => exact ih.cons e.1
    | some f =>
      -- The entry has the dotted key of the field that it gives.
      obtain ⟨rfl, -⟩ := fieldOf?_eq_some_iff.mp hfield
      exact ih.cons_cons _

/-- No field of a namespace is given twice. -/
theorem nodup_fieldsOf (space : String) (raw : Fields) :
    ((fieldsOf space raw.entries).map Prod.fst).Nodup := by
  apply List.Nodup.of_map (dotted space)
  rw [List.map_map]
  exact raw.nodup.sublist (map_dotted_fieldsOf_sublist space raw.entries)

/-- The namespace that front matter gives, without fields if it gives none. -/
def spaceOf (space : String) (raw : Fields) : Fields :=
  ⟨fieldsOf space raw.entries, nodup_fieldsOf space raw⟩

section extensions

variable {raw : Fields} {space field : String} {v : Value}

/-- A namespace is there if it has a field. -/
theorem get?_extensions (space : String) (raw : Fields) :
    (extensions raw).get? space =
      if spaceOf space raw = ∅ then none else some (spaceOf space raw) := by
  have hwritten : OrderedMap.ofList (fieldsOf space raw.entries) = spaceOf space raw :=
    OrderedMap.ext (OrderedMap.entries_ofList (nodup_fieldsOf space raw))
  have hempty : fieldsOf space raw.entries = [] ↔ spaceOf space raw = ∅ :=
    List.isEmpty_iff.symm.trans (OrderedMap.isEmpty_iff (m := spaceOf space raw))
  rw [extensions, get?_foldl_addExtension, SortedMap.get?_empty, grown]
  simp only [hempty]
  rw [← hwritten]
  rfl

/-- A namespace holds its fields if it has any, and is missing otherwise. -/
theorem get?_extensions_eq_some_iff {fields : Fields} :
    (extensions raw).get? space = some fields ↔ fields = spaceOf space raw ∧ fields ≠ ∅ := by
  rw [get?_extensions, Option.ite_none_left_eq_some, Option.some.injEq]
  constructor
  · rintro ⟨hne, rfl⟩
    exact ⟨rfl, hne⟩
  · rintro ⟨rfl, hne⟩
    exact ⟨hne, rfl⟩

/-- The namespaces are those with a field. -/
theorem mem_keys_extensions_iff : space ∈ (extensions raw).keys ↔ spaceOf space raw ≠ ∅ := by
  simp only [SortedMap.mem_keys_iff, get?_extensions_eq_some_iff, exists_eq_left]

/-- The fields of a namespace stand under its dotted keys. -/
theorem get?_spaceOf_eq_some_iff :
    (spaceOf space raw).get? field = some v ↔
      '.' ∉ field.toList ∧ space ∉ reserved ∧ raw.get? (dotted space field) = some v := by
  rw [OrderedMap.get?_eq_some_iff, OrderedMap.get?_eq_some_iff]
  show (field, v) ∈ raw.entries.filterMap (fieldOf? space) ↔ _
  rw [List.mem_filterMap]
  constructor
  · rintro ⟨e, hmem, hfield⟩
    obtain ⟨rfl, hfield, hspace⟩ := fieldOf?_eq_some_iff.mp hfield
    exact ⟨hfield, hspace, hmem⟩
  · rintro ⟨hfield, hspace, hmem⟩
    exact ⟨_, hmem, fieldOf?_eq_some_iff.mpr ⟨rfl, hfield, hspace⟩⟩

/-- A namespace that is not there has no fields to look up. -/
theorem bind_get?_extensions (space field : String) (raw : Fields) :
    ((extensions raw).get? space).bind (·.get? field) = (spaceOf space raw).get? field := by
  rw [get?_extensions]
  split
  · next hempty =>
    rw [hempty, OrderedMap.get?_empty]
    rfl
  · rfl

/-- The extensions are the dotted keys, each cut at its last dot. -/
theorem extends_extensions (raw : Fields) : Extends raw (extensions raw) where
  look_up space field v := by rw [bind_get?_extensions, get?_spaceOf_eq_some_iff]
  apart k l p hk hl := by
    rw [(extensionKey?_eq_some_iff.mp hk).1, (extensionKey?_eq_some_iff.mp hl).1]
  unreserved space hspace := by
    have hne := mt OrderedMap.isEmpty_iff.mp (mem_keys_extensions_iff.mp hspace)
    obtain ⟨e, he⟩ := List.exists_mem_of_ne_nil _ (mt List.isEmpty_iff.mpr hne)
    exact (get?_spaceOf_eq_some_iff.mp (OrderedMap.get?_eq_some_iff.mpr he)).2.1
  inhabited space fields hfields := (get?_extensions_eq_some_iff.mp hfields).2
  in_order space fields hfields := by
    rw [(get?_extensions_eq_some_iff.mp hfields).1, OrderedMap.keys, List.map_map]
    exact map_dotted_fieldsOf_sublist space raw.entries

end extensions

/-! ### Keys with a typed home -/

section homes

variable {α β : Type} {raw : Fields} {key : String}

/-- A field has its home under a key if it holds what is made of the value read there, or else what
it held before. -/
theorem HomeOf.of_read {fits : Value → α → Prop} {home : PromptMetadata → α}
    (read : Value → Option β) (make : β → α)
    (hfits : ∀ v a, fits v a ↔ ∃ b, read v = some b ∧ a = make b)
    (hhome : ∀ raw, home (metadata raw) = (((raw.get? key).bind read).map make).getD (home {})) :
    HomeOf raw key fits home where
  fitting v a hv ha := by
    obtain ⟨b, hb, rfl⟩ := (hfits v a).mp ha
    rw [hhome, hv, Option.bind_some, hb]
    rfl
  unfit hunfit := by
    rw [hhome]
    cases hread : (raw.get? key).bind read with
    | none => rfl
    | some b =>
      obtain ⟨v, hv, hb⟩ := Option.bind_eq_some_iff.mp hread
      exact absurd ((hfits v (make b)).mpr ⟨b, hb, rfl⟩) (hunfit v (make b) hv)
  alone other hsame := by
    rw [hhome, hhome, hsame]

/-- A field that is the text read under a key, and otherwise missing, has its home there. -/
theorem HomeOf.text {home : PromptMetadata → Option String} (hdefault : home {} = none)
    (hhome : ∀ raw, home (metadata raw) = (raw.get? key).bind Value.string?) :
    HomeOf raw key IsText home := by
  apply HomeOf.of_read Value.string? some
  · intro v a
    cases v <;> simp [IsText, Value.string?]
  · intro raw
    rw [hhome, hdefault]
    cases (raw.get? key).bind Value.string? <;> rfl

/-- A field that is the number of turns read under a key, and otherwise missing, has its home
there. -/
theorem HomeOf.turns {home : PromptMetadata → Option UInt32} (hdefault : home {} = none)
    (hhome : ∀ raw, home (metadata raw) = (raw.get? key).bind turns?) :
    HomeOf raw key IsTurns home := by
  apply HomeOf.of_read turns? some
  · intro v a
    simp only [IsTurns, turns?_eq_some_iff]
  · intro raw
    rw [hhome, hdefault]
    cases (raw.get? key).bind turns? <;> rfl

/-- A field that is the list of the readable items under a key, and otherwise empty, has its home
there. -/
theorem HomeOf.list {home : PromptMetadata → List α} {read : Value → Option α}
    (hdefault : home {} = [])
    (hhome : ∀ raw, home (metadata raw) =
      ((raw.get? key).bind fun v ↦ v.items?.map (·.filterMap read)).getD []) :
    HomeOf raw key (IsList read) home := by
  apply HomeOf.of_read Value.items? (List.filterMap read)
  · intro v a
    cases v <;> simp [IsList, Value.items?]
  · intro raw
    rw [hhome, hdefault]
    cases raw.get? key <;> rfl

/-- A field that is made of the record under a key, and otherwise keeps its default, has its home
there. -/
theorem HomeOf.record {home : PromptMetadata → α} {make : Fields → α}
    (hhome : ∀ raw,
      home (metadata raw) = (((raw.get? key).bind Value.fields?).map make).getD (home {})) :
    HomeOf raw key (IsRecord make) home := by
  refine HomeOf.of_read Value.fields? make ?_ hhome
  intro v a
  cases v <;> simp [IsRecord, Value.fields?]

end homes

/-- Every field with a home is read under its own key. -/
theorem typedHomes (raw : Fields) : TypedHomes raw where
  name := .text rfl fun raw ↦ by rw [metadata_eq]
  variant := .text rfl fun raw ↦ by rw [metadata_eq]
  version := .text rfl fun raw ↦ by rw [metadata_eq]
  description := .text rfl fun raw ↦ by rw [metadata_eq]
  model := .text rfl fun raw ↦ by rw [metadata_eq]
  maxTurns := .turns rfl fun raw ↦ by rw [metadata_eq]
  tools := .list rfl fun raw ↦ by rw [metadata_eq]
  toolDefs := .list rfl fun raw ↦ by rw [metadata_eq]
  config := .record fun raw ↦ by
    rw [metadata_eq, Option.map_id]
    rfl
  input := .record fun raw ↦ by
    rw [metadata_eq]
    cases raw.get? "input" with
    | none => rfl
    | some v => cases v <;> rfl
  output := .record fun raw ↦ by
    rw [metadata_eq]
    cases raw.get? "output" with
    | none => rfl
    | some v => cases v <;> rfl

/-! ### The order of the entries -/

section order

variable {raw other : Fields} (h : SameEntries raw other)

include h

/-- The same entries in another order give a namespace the same fields in another order. -/
theorem SameEntries.spaceOf (space : String) :
    SameEntries (spaceOf space raw) (FrontMatter.spaceOf space other) :=
  h.filterMap (fieldOf? space)

/-- Of two orders of the same entries, neither is empty alone. -/
theorem SameEntries.eq_empty_iff : raw = ∅ ↔ other = ∅ := by
  rw [← OrderedMap.isEmpty_iff, ← OrderedMap.isEmpty_iff, OrderedMap.isEmpty, OrderedMap.isEmpty,
    h.isEmpty_eq]

/-- A namespace has its fields in the order of their entries. -/
theorem rel_get?_extensions (space : String) :
    Option.Rel SameEntries ((extensions raw).get? space) ((extensions other).get? space) := by
  rw [get?_extensions, get?_extensions]
  by_cases hempty : spaceOf space raw = ∅
  · rw [if_pos hempty, if_pos ((h.spaceOf space).eq_empty_iff.mp hempty)]
    exact .none
  · rw [if_neg hempty, if_neg ((h.spaceOf space).eq_empty_iff.not.mp hempty)]
    exact .some (h.spaceOf space)

/-- The order of the entries does not show in the namespaces, which are sorted. -/
theorem keys_extensions_of_sameEntries : (extensions raw).keys = (extensions other).keys := by
  apply List.Pairwise.eq_of_mem_iff (SortedMap.pairwise_keys _) (SortedMap.pairwise_keys _)
  intro space
  rw [mem_keys_extensions_iff, mem_keys_extensions_iff, ne_eq, (h.spaceOf space).eq_empty_iff]

/-- Only the order of the fields in each namespace, and of the entries kept, is that of the
entries. -/
theorem sameButOrder_metadata : SameButOrder (metadata raw) (metadata other) where
  others := by simp only [metadata_eq, OrderedMap.get?_of_perm h]
  raw := .some h
  spaces := by
    rw [metadata_eq, metadata_eq]
    exact keys_extensions_of_sameEntries h
  fields := by
    rw [metadata_eq, metadata_eq]
    exact rel_get?_extensions h

end order

/-- The front matter is kept as it is. Each dotted key is one field of one namespace, each key with
a typed home is read there whatever stands beside it, and the order of the entries shows in nothing
but the orders of what is kept and of the fields in each namespace. -/
theorem metadata_routes (raw : Fields) :
    (metadata raw).raw = some raw ∧ Extends raw (metadata raw).ext ∧ TypedHomes raw ∧
      ∀ other, SameEntries raw other → SameButOrder (metadata raw) (metadata other) := by
  have hext : (metadata raw).ext = extensions raw := by rw [metadata_eq]
  rw [hext]
  exact ⟨rfl, extends_extensions raw, typedHomes raw, fun _ h ↦ sameButOrder_metadata h⟩

/-- A key with two dots, one with nothing behind its dot, and one whose namespace is a reserved
word, read in two orders. -/
theorem metadata_routes_dots :
    let raw : Fields := .ofList [("a.b.c", .ofNat 1), ("name", .ofNat 2), ("config.x", .null),
      ("a.b.", .null)]
    let other : Fields := .ofList [("a.b.", .null), ("config.x", .null), ("name", .ofNat 2),
      ("a.b.c", .ofNat 1)]
    SameEntries raw other ∧ SameButOrder (metadata raw) (metadata other) ∧
      (metadata raw).ext = .ofList [("a.b", .ofList [("c", .ofNat 1), ("", .null)])] ∧
      (metadata other).ext = .ofList [("a.b", .ofList [("", .null), ("c", .ofNat 1)])] ∧
      (metadata raw).name = none := by
  intro raw other
  have horder : SameEntries raw other := by
    unfold SameEntries
    decide
  exact ⟨horder, (metadata_routes raw).2.2.2 other horder, by decide, by decide, rfl⟩

end PromptDoc.FrontMatter
