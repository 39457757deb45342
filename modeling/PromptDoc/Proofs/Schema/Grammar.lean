import PromptDoc.Proofs.Schema.Compilation
import PromptDoc.Proofs.Schema.Visits

/-!
# The grammar of shorthand

Which nodes are shorthand, told from the texts, keys and nested nodes alone, and where a node that
is not goes wrong first.
Main statement: what compiles is `null`, finished JSON Schema and the nodes of the grammar, and any
other node fails with the error of its first offence (`compile_accepts_grammar`).
-/

namespace PromptDoc.Shorthand

open Json Schema

/-! ### Well-formed nodes -/

mutual

/-- A well-formed node: the text of a scalar type or of a name that the lookup knows, or a mapping
of well-formed entries. -/
inductive WellFormed (lookup : Option SchemaLookup) : Value → Prop
  | scalar {text name : String} (hpart : TypePart text name) (h : name ∈ scalarTypes) :
    WellFormed lookup (.string text)
  | named {text name : String} {s : Schema} (hpart : TypePart text name)
    (h : Knows lookup name s) : WellFormed lookup (.string text)
  | mapping {entries : List (String × Value)}
    (h : ∀ e ∈ entries, WellFormedEntry lookup e.1 e.2) : WellFormed lookup (.object entries)

/-- A well-formed entry of a mapping. -/
inductive WellFormedEntry (lookup : Option SchemaLookup) : String → Value → Prop
  | plain {key : String} {value : Value} (hkey : Unannotated key)
    (h : WellFormed lookup value) : WellFormedEntry lookup key value
  | nested {key note : String} {value : Value} (hkey : Noted key note)
    (hnote : note = "array" ∨ note = "object") (h : WellFormed lookup value) :
    WellFormedEntry lookup key value
  | enum {key : String} {values : List Value} (hkey : Noted key "enum") :
    WellFormedEntry lookup key (.array values)

end

/-! ### First offences -/

/-- A name is not resolved: there is no lookup, or it knows nothing of the name, or fails on it. -/
inductive Unresolved : Option SchemaLookup → String → SchemaError → Prop
  | noLookup {name : String} : Unresolved none name (.unsupportedScalar name)
  | unknown {find : SchemaLookup} {name : String} (h : (find name).result = .ok none) :
    Unresolved (some find) name (.notFound name)
  | failed {find : SchemaLookup} {name reason : String}
    (h : (find name).result = .error reason) :
    Unresolved (some find) name (.lookup name reason)

mutual

/-- The first offence in a node, by its error. In a mapping all entries before the offending one are
well-formed. -/
inductive Offends (lookup : Option SchemaLookup) : Value → SchemaError → Prop
  | name {text name : String} {e : SchemaError} (hpart : TypePart text name)
    (hscalar : name ∉ scalarTypes) (h : Unresolved lookup name e) :
    Offends lookup (.string text) e
  | entry {before after : List (String × Value)} {key : String} {value : Value} {e : SchemaError}
    (hbefore : ∀ x ∈ before, WellFormedEntry lookup x.1 x.2)
    (h : OffendsEntry lookup key value e) :
    Offends lookup (.object (before ++ (key, value) :: after)) e
  | unexpected {node : Value} (hstring : node.isString = false) (hobject : node.isObject = false) :
    Offends lookup node (.unexpectedNode node)

/-- The first offence in an entry, by its error. The value under an illegal annotation does not
matter. -/
inductive OffendsEntry (lookup : Option SchemaLookup) : String → Value → SchemaError → Prop
  | plain {key : String} {value : Value} {e : SchemaError} (hkey : Unannotated key)
    (h : Offends lookup value e) : OffendsEntry lookup key value e
  | nested {key note : String} {value : Value} {e : SchemaError} (hkey : Noted key note)
    (hnote : note = "array" ∨ note = "object") (h : Offends lookup value e) :
    OffendsEntry lookup key value e
  | enum {key : String} {value : Value} (hkey : Noted key "enum")
    (h : ∀ values, value ≠ .array values) : OffendsEntry lookup key value (.enumValues key)
  | parenthetical {key note : String} {value : Value} (hkey : Noted key note)
    (h : note ∉ ["array", "object", "enum"]) :
    OffendsEntry lookup key value (.parenthetical note)

end

/-! ### Stops under keys -/

variable {lookup : Option SchemaLookup} {key note : String} {value : Value} {inner : List Visit}

/-- A key without annotation lets its value be entered. -/
theorem keyVisits_of_unannotated (h : Unannotated key) : keyVisits key value inner = inner := by
  unfold keyVisits
  rcases unannotated_iff.mp h with hkey | ⟨name, optional, hkey⟩
  · rw [hkey]
  · rw [hkey]

/-- Only a list has items. -/
theorem isSome_items?_iff : value.items?.isSome = true ↔ ∃ values, value = .array values := by
  cases value <;> simp [Value.items?]

/-- What a note lets be entered. -/
theorem keyVisits_of_noted (h : Noted key note) : keyVisits key value inner =
    if note = "array" ∨ note = "object" then inner
    else if note = "enum" then
      if value.items?.isSome then [] else [.fault (.enumValues key)]
    else [.fault (.parenthetical note)] := by
  obtain ⟨name, optional, described, hkey, rfl⟩ := noted_iff.mp h
  unfold keyVisits
  rw [hkey]
  cases value with
  | array values => rfl
  | null => rfl
  | bool b => rfl
  | number n => rfl
  | string s => rfl
  | object fields => rfl

/-! ### The first stop that fails -/

/-- The error of the first stop that fails. -/
def firstError? (lookup : Option SchemaLookup) (stops : List Visit) : Option SchemaError :=
  stops.findSome? fun stop ↦ (meet lookup stop).error?

/-- Where nothing is visited there is no error. -/
@[simp] theorem firstError?_nil : firstError? lookup [] = none := rfl

/-- A fault that is visited is the error. -/
@[simp] theorem firstError?_fault {e : SchemaError} : firstError? lookup [.fault e] = some e := rfl

/-- The first stop that fails is among the former stops, or else among the latter. -/
theorem firstError?_append (stops more : List Visit) : firstError? lookup (stops ++ more) =
    (firstError? lookup stops).or (firstError? lookup more) :=
  List.findSome?_append

/-- What is well-formed has no stop that fails, and the first offence is that of the first stop that
fails. -/
structure Judged (wellFormed : Prop) (offends : SchemaError → Prop)
    (first : Option SchemaError) : Prop where
  wellFormed_iff : wellFormed ↔ first = none
  offends_iff : ∀ e, offends e ↔ first = some e

/-- The error of a name that is looked up says how it is unresolved. -/
theorem unresolved_iff {name : String} {e : SchemaError} :
    Unresolved lookup name e ↔ (named lookup name).error? = some e := by
  rw [Traced.error?_eq_some_iff]
  constructor
  · intro h
    cases h with
    | noLookup => rfl
    | unknown hanswer => rw [named, Traced.result_bind, Traced.mapError, hanswer]; rfl
    | failed hanswer => rw [named, Traced.result_bind, Traced.mapError, hanswer]
  · intro h
    cases lookup with
    | none =>
      cases h
      exact .noLookup
    | some find =>
      rw [named, Traced.result_bind, Traced.mapError] at h
      cases hanswer : (find name).result with
      | error reason =>
        rw [hanswer] at h
        cases h
        exact .failed hanswer
      | ok found =>
        rw [hanswer] at h
        cases found with
        | none =>
          cases h
          exact .unknown hanswer
        | some s => cases h

/-- A name is known when looking it up does not fail. -/
theorem exists_knows_iff {name : String} :
    (∃ s, Knows lookup name s) ↔ (named lookup name).error? = none := by
  simp only [Traced.error?_eq_none_iff, named_eq_ok_iff]

/-- A text is judged by its type part. -/
theorem judged_text (text : String) : Judged (WellFormed lookup (.string text))
    (Offends lookup (.string text)) (firstError? lookup (visits (.string text))) := by
  have hpart : TypePart text (Described.ofText text).name := typePart_iff.mpr rfl
  have hmeet (name : String) :
      (meet lookup (.reference name)).error? = (named lookup name).error? :=
    Traced.error?_course _
  rw [visits, firstError?]
  split
  · next hscalar =>
    have hmem : (Described.ofText text).name ∈ scalarTypes := by simpa [isScalarType] using hscalar
    refine ⟨iff_of_true (.scalar hpart hmem) rfl, fun e ↦ iff_of_false ?_ (by simp)⟩
    intro h
    cases h with
    | name hpart' hnot => exact hnot (typePart_iff.mp hpart' ▸ hmem)
    | unexpected hstring => cases hstring
  · next hscalar =>
    have hmem : (Described.ofText text).name ∉ scalarTypes := by simpa [isScalarType] using hscalar
    rw [List.findSome?_singleton, hmeet]
    constructor
    · rw [← exists_knows_iff]
      constructor
      · intro h
        cases h with
        | scalar hpart' h => exact absurd (typePart_iff.mp hpart' ▸ h) hmem
        | named hpart' h => exact ⟨_, typePart_iff.mp hpart' ▸ h⟩
      · rintro ⟨s, hs⟩
        exact .named hpart hs
    · intro e
      rw [← unresolved_iff]
      constructor
      · intro h
        cases h with
        | name hpart' _ h => exact typePart_iff.mp hpart' ▸ h
        | unexpected hstring => cases hstring
      · exact .name hpart hmem

/-! ### Entries -/

/-- An entry without annotation is well-formed as its value is. -/
theorem wellFormedEntry_iff_of_unannotated (hkey : Unannotated key) :
    WellFormedEntry lookup key value ↔ WellFormed lookup value := by
  constructor
  · intro h
    cases h with
    | plain _ h => exact h
    | nested hnoted => exact absurd hkey hnoted.not_unannotated
    | enum hnoted => exact absurd hkey hnoted.not_unannotated
  · exact .plain hkey

/-- An entry without annotation offends as its value does. -/
theorem offendsEntry_iff_of_unannotated {e : SchemaError} (hkey : Unannotated key) :
    OffendsEntry lookup key value e ↔ Offends lookup value e := by
  constructor
  · intro h
    cases h with
    | plain _ h => exact h
    | nested hnoted => exact absurd hkey hnoted.not_unannotated
    | enum hnoted => exact absurd hkey hnoted.not_unannotated
    | parenthetical hnoted => exact absurd hkey hnoted.not_unannotated
  · exact .plain hkey

/-- When an entry with a note is well-formed. -/
theorem wellFormedEntry_iff_of_noted (hkey : Noted key note) :
    WellFormedEntry lookup key value ↔
      (note = "array" ∨ note = "object") ∧ WellFormed lookup value ∨
        note = "enum" ∧ ∃ values, value = .array values := by
  constructor
  · intro h
    cases h with
    | plain hplain => exact absurd hplain hkey.not_unannotated
    | nested hnoted hnote h => exact .inl ⟨hkey.unique hnoted ▸ hnote, h⟩
    | enum hnoted => exact .inr ⟨hkey.unique hnoted, _, rfl⟩
  · rintro (⟨hnote, h⟩ | ⟨rfl, values, rfl⟩)
    · exact .nested hkey hnote h
    · exact .enum hkey

/-- How an entry with a note offends. -/
theorem offendsEntry_iff_of_noted {e : SchemaError} (hkey : Noted key note) :
    OffendsEntry lookup key value e ↔
      (note = "array" ∨ note = "object") ∧ Offends lookup value e ∨
        note = "enum" ∧ (∀ values, value ≠ .array values) ∧ e = .enumValues key ∨
          note ∉ ["array", "object", "enum"] ∧ e = .parenthetical note := by
  constructor
  · intro h
    cases h with
    | plain hplain => exact absurd hplain hkey.not_unannotated
    | nested hnoted hnote h => exact .inl ⟨hkey.unique hnoted ▸ hnote, h⟩
    | enum hnoted h => exact .inr (.inl ⟨hkey.unique hnoted, h, rfl⟩)
    | parenthetical hnoted h =>
      obtain rfl := hkey.unique hnoted
      exact .inr (.inr ⟨h, rfl⟩)
  · rintro (⟨hnote, h⟩ | ⟨rfl, h, rfl⟩ | ⟨h, rfl⟩)
    · exact .nested hkey hnote h
    · exact .enum hkey h
    · exact .parenthetical hkey h

/-- An entry is judged by its key and, where that lets it be entered, its value. -/
theorem judged_entry (key : String) {value : Value}
    (hvalue : Judged (WellFormed lookup value) (Offends lookup value)
      (firstError? lookup (visits value))) :
    Judged (WellFormedEntry lookup key value) (OffendsEntry lookup key value)
      (firstError? lookup (keyVisits key value (visits value))) := by
  by_cases hkey : Unannotated key
  · rw [keyVisits_of_unannotated hkey]
    constructor
    · rw [wellFormedEntry_iff_of_unannotated hkey, hvalue.wellFormed_iff]
    · intro e
      rw [offendsEntry_iff_of_unannotated hkey, hvalue.offends_iff]
  · obtain ⟨note, hnoted⟩ := exists_noted hkey
    rw [keyVisits_of_noted hnoted]
    split
    · next hnested =>
      have henum : note ≠ "enum" := by
        rintro rfl
        simp at hnested
      constructor
      · rw [wellFormedEntry_iff_of_noted hnoted, hvalue.wellFormed_iff]
        simp [hnested, henum]
      · intro e
        rw [offendsEntry_iff_of_noted hnoted, hvalue.offends_iff]
        simp [hnested, henum]
    · next hnested =>
      split
      · next henum =>
        -- The value of an `enum` is not entered: all that counts is whether it is a list.
        split
        · next hlist =>
          obtain ⟨values, rfl⟩ := isSome_items?_iff.mp hlist
          constructor
          · rw [wellFormedEntry_iff_of_noted hnoted]
            simp [henum]
          · intro e
            rw [offendsEntry_iff_of_noted hnoted]
            simp [henum]
        · next hlist =>
          have hno : ∀ values, value ≠ .array values := fun values heq ↦
            hlist (isSome_items?_iff.mpr ⟨values, heq⟩)
          constructor
          · rw [wellFormedEntry_iff_of_noted hnoted]
            simp [henum, hno]
          · intro e
            rw [offendsEntry_iff_of_noted hnoted]
            simp [henum, hno, eq_comm]
      · next henum =>
        have hlisted : note ∉ ["array", "object", "enum"] := by
          simpa [not_or, and_assoc] using And.intro hnested henum
        constructor
        · rw [wellFormedEntry_iff_of_noted hnoted]
          simp [hnested, henum]
        · intro e
          rw [offendsEntry_iff_of_noted hnoted]
          simp only [hnested, henum, hlisted, false_and, true_and, not_false_eq_true, false_or,
            firstError?_fault, Option.some.injEq, eq_comm]

/-! ### Nodes -/

/-- A mapping is well-formed when its entries are. -/
theorem wellFormed_object_iff {entries : List (String × Value)} :
    WellFormed lookup (.object entries) ↔ ∀ x ∈ entries, WellFormedEntry lookup x.1 x.2 := by
  constructor
  · intro h
    cases h with
    | mapping h => exact h
  · exact .mapping

/-- The first offence in a mapping is in an entry behind well-formed ones. -/
theorem offends_object_iff {entries : List (String × Value)} {e : SchemaError} :
    Offends lookup (.object entries) e ↔
      ∃ before key value after, entries = before ++ (key, value) :: after ∧
        (∀ x ∈ before, WellFormedEntry lookup x.1 x.2) ∧ OffendsEntry lookup key value e := by
  constructor
  · intro h
    generalize hnode : Value.object entries = node at h
    cases h with
    | name => cases hnode
    | entry hbefore h =>
      cases hnode
      exact ⟨_, _, _, _, rfl, hbefore, h⟩
    | unexpected _ hobject =>
      subst hnode
      cases hobject
  · rintro ⟨before, key, value, after, rfl, hbefore, h⟩
    exact .entry hbefore h

/-- A mapping without entries has no offence. -/
theorem not_offends_empty {e : SchemaError} : ¬ Offends lookup (.object []) e := by
  rw [offends_object_iff]
  rintro ⟨before, key, value, after, hentries, -⟩
  simp at hentries

/-- The first offence in a mapping is that of its first entry, or if that is well-formed, the first
offence in the rest. -/
theorem offends_cons_iff {rest : List (String × Value)} {e : SchemaError} :
    Offends lookup (.object ((key, value) :: rest)) e ↔
      OffendsEntry lookup key value e ∨
        WellFormedEntry lookup key value ∧ Offends lookup (.object rest) e := by
  rw [offends_object_iff, offends_object_iff]
  constructor
  · rintro ⟨before, key', value', after, hentries, hbefore, h⟩
    cases before with
    | nil =>
      cases hentries
      exact .inl h
    | cons x before =>
      cases hentries
      rw [List.forall_mem_cons] at hbefore
      exact .inr ⟨hbefore.1, before, key', value', after, rfl, hbefore.2, h⟩
  · rintro (h | ⟨hfirst, before, key', value', after, rfl, hbefore, h⟩)
    · exact ⟨[], key, value, rest, rfl, by simp, h⟩
    · exact ⟨(key, value) :: before, key', value', after, rfl,
        List.forall_mem_cons.mpr ⟨hfirst, hbefore⟩, h⟩

/-- A node that is neither a text nor a mapping is an offence. -/
theorem judged_unexpected {node : Value} (hstring : node.isString = false)
    (hobject : node.isObject = false) :
    Judged (WellFormed lookup node) (Offends lookup node) (some (.unexpectedNode node)) := by
  constructor
  · refine iff_of_false ?_ (by simp)
    intro h
    cases h with
    | scalar => cases hstring
    | named => cases hstring
    | mapping => cases hobject
  · intro e
    constructor
    · intro h
      cases h with
      | name => cases hstring
      | entry => cases hobject
      | unexpected => rfl
    · intro h
      cases h
      exact .unexpected hstring hobject

mutual

/-- A node is judged by its stops. -/
theorem judged_node : (node : Value) → Judged (WellFormed lookup node) (Offends lookup node)
    (firstError? lookup (visits node))
  | .string text => judged_text text
  | .object entries => judged_object entries
  | .null => judged_unexpected rfl rfl
  | .bool _ => judged_unexpected rfl rfl
  | .number _ => judged_unexpected rfl rfl
  | .array _ => judged_unexpected rfl rfl

/-- A mapping is judged by the stops in its entries. -/
theorem judged_object : (entries : List (String × Value)) →
    Judged (WellFormed lookup (.object entries)) (Offends lookup (.object entries))
      (firstError? lookup (entryVisits entries))
  | [] => by
    refine ⟨iff_of_true (.mapping fun x hx ↦ nomatch hx) rfl, fun e ↦ ?_⟩
    exact iff_of_false not_offends_empty (by simp [entryVisits])
  | (key, value) :: rest => by
    have hfirst := judged_entry key (judged_node value)
    have hrest := judged_object rest
    rw [entryVisits, firstError?_append]
    constructor
    · rw [wellFormed_object_iff, List.forall_mem_cons, ← wellFormed_object_iff,
        hfirst.wellFormed_iff, hrest.wellFormed_iff, Option.or_eq_none_iff]
    · intro e
      rw [offends_cons_iff, hfirst.wellFormed_iff, hfirst.offends_iff, hrest.offends_iff,
        Option.or_eq_some_iff]

end

/-! ### Compilations -/

/-- A node that is `null` or finished JSON Schema is not read as shorthand. -/
inductive Settled : Value → Prop
  | null : Settled .null
  | finished {fields : List (String × Value)} {s : Schema} (h : finished? fields = some s) :
    Settled (.object fields)

/-- Nothing stops a compilation of a settled node. -/
theorem Settled.compileVisits_eq {node : Value} (h : Settled node) : compileVisits node = [] := by
  cases h with
  | null => rfl
  | finished h => rw [compileVisits, h, Option.isSome_some, if_pos rfl]

/-- A compilation of any other node meets all its stops. -/
theorem compileVisits_eq_visits {node : Value} (h : ¬ Settled node) :
    compileVisits node = visits node := by
  cases node with
  | null => exact absurd .null h
  | object fields =>
    rw [compileVisits, visits, if_neg]
    rw [Option.isSome_iff_exists]
    rintro ⟨s, hs⟩
    exact h (.finished hs)
  | string text => rfl
  | bool b => rfl
  | number n => rfl
  | array items => rfl

/-- A compilation fails with the error of its first stop that fails. -/
theorem error?_compile (node : Value) :
    (compile lookup node).error? = firstError? lookup (compileVisits node) := by
  rw [← Traced.error?_course, course_compile, Traced.error?_forM, firstError?]

/-- What compiles is `null`, finished JSON Schema and the nodes of the grammar; any other node fails
with the error of its first offence. -/
theorem compile_accepts_grammar (lookup : Option SchemaLookup) (node : Value) :
    ((∃ s, (compile lookup node).result = .ok s) ↔ Settled node ∨ WellFormed lookup node) ∧
      ∀ e, (compile lookup node).result = .error e ↔ ¬ Settled node ∧ Offends lookup node e := by
  have hjudged : Judged (WellFormed lookup node) (Offends lookup node) _ := judged_node node
  rw [← Traced.error?_eq_none_iff]
  simp only [← Traced.error?_eq_some_iff, error?_compile]
  by_cases hsettled : Settled node
  · simp [hsettled, hsettled.compileVisits_eq]
  · simp only [hsettled, false_or, not_false_eq_true, true_and, compileVisits_eq_visits hsettled,
      ← hjudged.wellFormed_iff, ← hjudged.offends_iff, implies_true, and_self]

/-- An illegal annotation is an offence before what stands under it, and hides what follows. -/
example :
    let node : Value := .object
      [("name", .string "string"), ("tags(list)", .null), ("owner", .string "Person")]
    (compile none node).error? = some (.parenthetical "list") := by decide +kernel

end PromptDoc.Shorthand
