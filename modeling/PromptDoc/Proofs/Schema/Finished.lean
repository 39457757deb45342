import PromptDoc.Proofs.Schema.Compilation

/-!
# Finished schemas

A compiled schema that is compiled once more is taken as it is when it is finished: all its keys are
keywords, and it has a type. Main statements: only a finished schema compiles to itself
(`compile_toJson_eq_self_iff`), and what a node compiles to is finished unless the node asks for any
value or names a schema that is not (`finished_iff_lasts`).
-/

namespace PromptDoc.Shorthand

open Json Schema

variable {lookup : Option SchemaLookup} {s : Schema}

/-- A schema of keywords alone, whose type is a type name or some type names. -/
structure Finished (s : Schema) : Prop where
  keyword : ∀ k v, s.get? k = some v → isKeyword k = true
  typed : ∃ type, s.get? "type" = some type ∧ isTypeValue type = true

/-- A type name whose schema is finished: a scalar type other than `any`, or the name of such a
schema. -/
def NameLasts (lookup : Option SchemaLookup) (name : String) : Prop :=
  if name = "any" then False
  else if name ∈ scalarTypes then True
  else ∃ s, Knows lookup name s ∧ Finished s

/-- A node whose schema stays what it is when it is compiled once more. Of the texts, `any` and the
names of schemas that are not finished are none. A mapping is one unless it is taken as finished and
has a key twice. -/
def Lasts (lookup : Option SchemaLookup) : Value → Prop
  | .string text => ∃ name, TypePart text name ∧ NameLasts lookup name
  | .object fields => ∀ s, finished? fields = some s → Finished s
  | _ => True

/-! ### Finished schemas and what is read as finished -/

-- The keys of a schema with their values are its entries.
private theorem keyword_iff_all :
    (∀ k v, s.get? k = some v → isKeyword k = true) ↔
      (s.fields.entries.all fun e ↦ isKeyword e.1) = true := by
  rw [List.all_eq_true]
  constructor
  · intro h e he
    exact h e.1 e.2 (OrderedMap.get?_eq_some_iff.mpr he)
  · intro h k v hv
    exact h (k, v) (OrderedMap.get?_eq_some_iff.mp hv)

/-- A finished schema is read as it is. -/
theorem finished?_of_finished (h : Finished s) : finished? s.fields.entries = some s := by
  obtain ⟨type, htype, hvalue⟩ := h.typed
  have hfind : OrderedMap.find? "type" s.fields.entries = some type := htype
  rw [finished?, if_pos (keyword_iff_all.mp h.keyword), hfind]
  simp only [hvalue, ↓reduceIte, OrderedMap.ofList_entries]

-- Setting a keyword keeps all keys keywords.
private theorem keyword_set {k : String} {w : Value} (hk : isKeyword k = true)
    (h : ∀ k v, s.get? k = some v → isKeyword k = true) (x : String) (v : Value)
    (hv : (s.set k w).get? x = some v) : isKeyword x = true := by
  rw [get?_set] at hv
  by_cases hx : x = k
  · rw [hx, hk]
  · rw [if_neg hx] at hv
    exact h x v hv

/-- A finished schema with one more keyword beside the type is finished. -/
theorem Finished.set {k : String} {w : Value} (h : Finished s) (hk : isKeyword k = true)
    (hne : k ≠ "type") : Finished (s.set k w) := by
  refine ⟨keyword_set hk h.keyword, ?_⟩
  obtain ⟨type, htype, hvalue⟩ := h.typed
  exact ⟨type, by rw [get?_set, if_neg (Ne.symm hne), htype], hvalue⟩

/-- A schema of a type is finished. -/
theorem finished_ofType {name : String} (h : isTypeName name = true) : Finished (ofType name) := by
  constructor
  · apply keyword_set (by decide)
    intro k v hv
    cases hv
  · exact ⟨.string name, get?_set .., h⟩

/-- The schema of any value has no type. -/
theorem not_finished_empty : ¬ Finished Schema.empty := by
  intro h
  obtain ⟨type, htype, -⟩ := h.typed
  cases htype

/-- A description finishes no schema and leaves a finished one finished. -/
theorem finished_describe {description : Option String} :
    Finished (s.describe description) ↔ Finished s := by
  cases description with
  | none => rfl
  | some text =>
    constructor
    · intro h
      obtain ⟨type, htype, hvalue⟩ := h.typed
      refine ⟨?_, type, ?_, hvalue⟩
      · intro k v hv
        by_cases hk : k = "description"
        · rw [hk]
          decide
        · apply h.keyword k v
          show (s.set "description" (.string text)).get? k = some v
          rw [get?_set, if_neg hk, hv]
      · have hset : (s.set "description" (.string text)).get? "type" = some type := htype
        rwa [get?_set, if_neg (by decide)] at hset
    · intro h
      exact h.set (by decide) (by decide)

/-- A mapping whose keys are distinct is finished when it is read as finished. -/
theorem lasts_object (lookup : Option SchemaLookup) {fields : List (String × Value)}
    (h : (fields.map Prod.fst).Nodup) : Lasts lookup (.object fields) := by
  have hentries : OrderedMap.ofList fields = ⟨fields, h⟩ := OrderedMap.ofList_entries ⟨fields, h⟩
  intro s hs
  unfold finished? at hs
  rw [hentries] at hs
  split at hs
  · next hall =>
    have hkeyword := keyword_iff_all (s := ⟨⟨fields, h⟩⟩).mpr hall
    split at hs
    · next type htype =>
      split at hs
      · next hvalue =>
        cases hs
        exact ⟨hkeyword, type, htype, hvalue⟩
      · cases hs
    · split at hs
      · cases hs
        exact ⟨keyword_set (by decide) hkeyword, .string "object", get?_set .., by decide⟩
      · cases hs
  · cases hs

/-- The schema of a mapping is finished. -/
theorem finished_schema (d : Draft) : Finished d.schema := by
  have hbase : Finished d.base := (finished_ofType (by decide)).set (by decide) (by decide)
  have hcore : Finished d.core := by
    unfold Draft.core
    split
    · exact hbase
    · exact hbase.set (by decide) (by decide)
  cases hadditional : d.additional with
  | some s =>
    have heq : d.schema = d.core.set "additionalProperties" s.toJson := by
      simp only [Draft.schema, hadditional, Draft.core, Draft.base]
    rw [heq]
    exact hcore.set (by decide) (by decide)
  | none =>
    have heq : d.schema = d.core := by
      simp only [Draft.schema, hadditional, Draft.core, Draft.base]
    rw [heq]
    exact hcore

/-- A mapping that is compiled gives a finished schema. -/
theorem finished_of_ofNode_object {fields : List (String × Value)}
    (h : (some <$> ofNode lookup (.object fields)).result = .ok (some s)) : Finished s := by
  obtain ⟨s', hs', heq⟩ := Traced.result_map_eq_ok_iff.mp h
  cases heq
  obtain ⟨d, -, rfl⟩ := Traced.result_map_eq_ok_iff.mp hs'
  exact finished_schema d

/-- The schema of a type text is finished exactly when the text lasts. -/
theorem finished_ofTypeText_iff {text : String} (h : (ofTypeText lookup text).result = .ok s) :
    Finished s ↔ Lasts lookup (.string text) := by
  obtain ⟨base, rfl, hbase⟩ := ofTypeText_eq_ok h
  rw [finished_describe, Lasts, exists_typePart_iff, NameLasts]
  split
  · next hany =>
    rw [if_pos hany] at hbase
    rw [hbase]
    exact iff_of_false not_finished_empty id
  · next hany =>
    rw [if_neg hany] at hbase
    split
    · next hscalar =>
      rw [if_pos hscalar] at hbase
      rw [hbase]
      have hname : isScalarType (Described.ofText text).name = true :=
        List.contains_iff_mem.mpr hscalar
      exact iff_of_true (finished_ofType (by rw [isTypeName, hname]; rfl)) trivial
    · next hscalar =>
      rw [if_neg hscalar] at hbase
      constructor
      · intro hfinished
        exact ⟨base, hbase, hfinished⟩
      · rintro ⟨s', hs', hfinished⟩
        rwa [hbase.unique hs']

/-! ### Compiling once more -/

/-- A schema compiles to itself exactly when it is finished. -/
theorem compile_toJson_eq_self_iff (lookup : Option SchemaLookup) :
    (compile lookup s.toJson).result = .ok (some s) ↔ Finished s := by
  show (compile lookup (.object s.fields.entries)).result = _ ↔ _
  constructor
  · intro h
    cases hfinished : finished? s.fields.entries with
    | some s' =>
      simp only [compile, hfinished] at h
      cases h
      exact lasts_object lookup s.fields.nodup s hfinished
    | none =>
      simp only [compile, hfinished] at h
      exact finished_of_ofNode_object h
  · intro h
    simp only [compile, finished?_of_finished h]
    rfl

/-- The schema of a node is finished exactly when the node lasts. -/
theorem finished_iff_lasts {node : Value} (h : (compile lookup node).result = .ok (some s)) :
    Finished s ↔ Lasts lookup node := by
  cases node with
  | string text =>
    obtain ⟨s', hs', heq⟩ := Traced.result_map_eq_ok_iff.mp h
    cases heq
    exact finished_ofTypeText_iff hs'
  | object fields =>
    rw [Lasts]
    rw [compile] at h
    cases hfinished : finished? fields with
    | some s' =>
      rw [hfinished] at h
      cases h
      simp
    | none =>
      rw [hfinished] at h
      exact iff_of_true (finished_of_ofNode_object h) (by simp)
  | null => cases h
  | bool b =>
    obtain ⟨s', hs', heq⟩ := Traced.result_map_eq_ok_iff.mp h
    cases hs'
  | number n =>
    obtain ⟨s', hs', heq⟩ := Traced.result_map_eq_ok_iff.mp h
    cases hs'
  | array items =>
    obtain ⟨s', hs', heq⟩ := Traced.result_map_eq_ok_iff.mp h
    cases hs'

/-- Only `null` compiles to no schema. -/
theorem eq_null_of_compile {node : Value} (h : (compile lookup node).result = .ok none) :
    node = .null := by
  have hnode (h : (some <$> ofNode lookup node).result = .ok none) : node = .null := by
    obtain ⟨s, -, heq⟩ := Traced.result_map_eq_ok_iff.mp h
    cases heq
  cases node with
  | null => rfl
  | object fields =>
    rw [compile] at h
    cases hfinished : finished? fields with
    | some s =>
      rw [hfinished] at h
      cases h
    | none =>
      rw [hfinished] at h
      exact hnode h
  | string text => exact hnode h
  | bool b => exact hnode h
  | number n => exact hnode h
  | array items => exact hnode h

end PromptDoc.Shorthand
