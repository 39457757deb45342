import PromptDoc.Schema.Shorthand

/-!
# The texts and keys of shorthand

What a text or a key of shorthand says, told from its characters. A text is read up to its first
comma. A key is about the property that stands before its first parenthesis, less one `?` at the
end, and behind the parenthesis it has a note. Main statements: texts and keys are read so
(`typePart_iff`, `noted_iff`, `unannotated_iff`, `ofText_eq_property`).
-/

namespace PromptDoc.Shorthand

/-! ### What texts and keys say -/

/-- The type part of a text: what stands before the first comma, trimmed, or the whole text if it
has no comma. -/
inductive TypePart (text : String) : String → Prop
  | whole (h : ',' ∉ text.toList) : TypePart text text
  | beforeComma {before after : List Char} (h : text.toList = before ++ ',' :: after)
    (hbefore : ',' ∉ before) : TypePart text (String.ofList (Text.trim before))

/-- The annotation of a key: what stands behind the first `(`, less one `)` at the very end. -/
inductive Parenthetical (key : String) : String → Prop
  | closed {before inner : List Char} (h : key.toList = before ++ '(' :: (inner ++ [')']))
    (hbefore : '(' ∉ before) : Parenthetical key (String.ofList inner)
  | unclosed {before inner : List Char} (h : key.toList = before ++ '(' :: inner)
    (hbefore : '(' ∉ before) (hinner : inner.getLast? ≠ some ')') :
    Parenthetical key (String.ofList inner)

/-- A key whose value is a node as it stands: the wildcard, or a key without `(`. -/
def Unannotated (key : String) : Prop := key = wildcardText ∨ '(' ∉ key.toList

/-- A key with an annotation, whose type part is the note. -/
def Noted (key note : String) : Prop :=
  key ≠ wildcardText ∧ ∃ text, Parenthetical key text ∧ TypePart text note

/-- The name part of a key, before its first `(`. -/
def namePart (key : String) : List Char := key.toList.takeWhile (· ≠ '(')

/-- The property that a key names: its name part, less one `?` at the end. -/
def propertyOf (key : String) : String := String.ofList (Text.stripEnd '?' (namePart key))

/-- A key says that its property may be absent. -/
def IsOptional (key : String) : Prop := (namePart key).getLast? = some '?'

/-- The property that a key is about; the wildcard is about none in particular. -/
def slotOf (key : String) : Option String :=
  if key = wildcardText then none else some (propertyOf key)

instance (key : String) : Decidable (IsOptional key) := inferInstanceAs (Decidable (_ = _))

/-! ### What is read in them -/

/-- The type part of a text is the name that is read in it. -/
theorem typePart_iff {text name : String} :
    TypePart text name ↔ (Described.ofText text).name = name := by
  constructor
  · intro h
    cases h with
    | whole hcomma => rw [Described.ofText, Text.cutFirst?_eq_none_iff.mpr hcomma]
    | beforeComma htext hbefore =>
      rw [Described.ofText, Text.cutFirst?_eq_some_iff.mpr ⟨htext, hbefore⟩]
  · rintro rfl
    rw [Described.ofText]
    cases hcut : Text.cutFirst? ',' text.toList with
    | none => exact .whole (Text.cutFirst?_eq_none_iff.mp hcut)
    | some p =>
      obtain ⟨htext, hbefore⟩ := Text.cutFirst?_eq_some_iff.mp hcut
      exact .beforeComma htext hbefore

/-- What holds of the type part of a text holds of the name that is read in it. -/
theorem exists_typePart_iff {text : String} {p : String → Prop} :
    (∃ name, TypePart text name ∧ p name) ↔ p (Described.ofText text).name := by
  simp only [typePart_iff, exists_eq_left']

/-- The annotation of a key is the text that is read behind its first parenthesis. -/
theorem parenthetical_iff {key text : String} :
    Parenthetical key text ↔ ∃ before rest, Text.cutFirst? '(' key.toList = some (before, rest) ∧
      String.ofList (Text.stripEnd ')' rest) = text := by
  constructor
  · intro h
    cases h with
    | closed hkey hbefore =>
      refine ⟨_, _, Text.cutFirst?_eq_some_iff.mpr ⟨hkey, hbefore⟩, ?_⟩
      simp [Text.stripEnd]
    | unclosed hkey hbefore hinner =>
      refine ⟨_, _, Text.cutFirst?_eq_some_iff.mpr ⟨hkey, hbefore⟩, ?_⟩
      rw [Text.stripEnd, if_neg hinner]
  · rintro ⟨before, rest, hcut, rfl⟩
    obtain ⟨hkey, hbefore⟩ := Text.cutFirst?_eq_some_iff.mp hcut
    rw [Text.stripEnd]
    split
    · next hclosed =>
      rw [List.getLast?_eq_some_iff] at hclosed
      obtain ⟨inner, rfl⟩ := hclosed
      rw [List.dropLast_concat]
      exact .closed hkey hbefore
    · next hopen => exact .unclosed hkey hbefore hopen

variable {key note : String}

/-- A key is read with the note of its annotation. -/
theorem noted_iff : Noted key note ↔ ∃ name optional described,
    Key.ofText key = .property name optional (some described) ∧ described.name = note := by
  rw [Noted, Key.ofText]
  split
  · next hwildcard => simp [hwildcard]
  · next hwildcard =>
    simp only [ne_eq, hwildcard, not_false_eq_true, true_and, parenthetical_iff, typePart_iff]
    cases hcut : Text.cutFirst? '(' key.toList with
    | none => simp
    | some p =>
      obtain ⟨before, rest⟩ := p
      constructor
      · rintro ⟨text, ⟨before', rest', hcut', rfl⟩, hnote⟩
        cases hcut'
        exact ⟨_, _, _, rfl, hnote⟩
      · rintro ⟨name, optional, described, hproperty, hnote⟩
        cases hproperty
        exact ⟨_, ⟨before, rest, rfl, rfl⟩, hnote⟩

/-- A key without annotation is read as the wildcard or as a property without one. -/
theorem unannotated_iff : Unannotated key ↔ Key.ofText key = .wildcard ∨
    ∃ name optional, Key.ofText key = .property name optional none := by
  rw [Unannotated, Key.ofText]
  split
  · next hwildcard => simp [hwildcard]
  · next hwildcard =>
    simp only [hwildcard, false_or]
    rw [← Text.cutFirst?_eq_none_iff]
    cases hcut : Text.cutFirst? '(' key.toList with
    | none => simp
    | some p => simp

/-- The note of a key that was read. -/
def Key.note? : Key → Option String
  | .property _ _ (some described) => some described.name
  | _ => none

/-- The note of a key is that of the key that is read. -/
theorem noted_iff_note? : Noted key note ↔ (Key.ofText key).note? = some note := by
  rw [noted_iff]
  cases Key.ofText key with
  | wildcard => simp [Key.note?]
  | property name optional parenthetical =>
    cases parenthetical with
    | none => simp [Key.note?]
    | some described =>
      rw [Key.note?, Option.some_inj]
      constructor
      · rintro ⟨_, _, _, hkey, hnote⟩
        cases hkey
        exact hnote
      · intro hnote
        exact ⟨name, optional, described, rfl, hnote⟩

instance (key note : String) : Decidable (Noted key note) :=
  decidable_of_iff _ noted_iff_note?.symm

/-- A key has one note at most. -/
theorem Noted.unique {other : String} (h : Noted key note) (h' : Noted key other) :
    note = other := by
  obtain ⟨name, optional, described, hkey, rfl⟩ := noted_iff.mp h
  obtain ⟨name', optional', described', hkey', rfl⟩ := noted_iff.mp h'
  rw [hkey] at hkey'
  cases hkey'
  rfl

/-- A key with a note is not without annotation. -/
theorem Noted.not_unannotated (h : Noted key note) : ¬ Unannotated key := by
  obtain ⟨name, optional, described, hkey, -⟩ := noted_iff.mp h
  rw [unannotated_iff, hkey]
  simp

/-- A key that is not without annotation has a note. -/
theorem exists_noted (h : ¬ Unannotated key) : ∃ note, Noted key note := by
  cases hkey : Key.ofText key with
  | wildcard => exact absurd (unannotated_iff.mpr (.inl hkey)) h
  | property name optional parenthetical =>
    cases parenthetical with
    | none => exact absurd (unannotated_iff.mpr (.inr ⟨name, optional, hkey⟩)) h
    | some described => exact ⟨_, noted_iff.mpr ⟨name, optional, described, hkey, rfl⟩⟩

private theorem takeWhile_ne_append {c : Char} {before : List Char} (h : c ∉ before)
    (rest : List Char) :
    (before ++ rest).takeWhile (· ≠ c) = before ++ rest.takeWhile (· ≠ c) := by
  refine List.takeWhile_append_of_pos fun x hx ↦ ?_
  have hne : x ≠ c := by
    rintro rfl
    exact h hx
  simpa using hne

/-- The name part and its `?` are read in every key but the wildcard. -/
theorem ofText_eq_property (h : key ≠ wildcardText) : ∃ parenthetical,
    Key.ofText key = .property (propertyOf key) (decide (IsOptional key)) parenthetical := by
  have hname {name : List Char} (hpart : namePart key = name) :
      propertyName name = (propertyOf key, decide (IsOptional key)) := by
    subst hpart
    rfl
  rw [Key.ofText, if_neg h]
  cases hcut : Text.cutFirst? '(' key.toList with
  | none =>
    have hwhole : namePart key = key.toList := by
      simpa [namePart] using takeWhile_ne_append (Text.cutFirst?_eq_none_iff.mp hcut) []
    dsimp only
    rw [hname hwhole]
    exact ⟨none, rfl⟩
  | some p =>
    obtain ⟨before, rest⟩ := p
    obtain ⟨hkey, hbefore⟩ := Text.cutFirst?_eq_some_iff.mp hcut
    have hpart : namePart key = before := by
      rw [namePart, hkey, takeWhile_ne_append hbefore]
      simp
    dsimp only
    rw [hname hpart]
    exact ⟨_, rfl⟩

/-- The wildcard is read as such. -/
theorem ofText_wildcardText : Key.ofText wildcardText = .wildcard := by rw [Key.ofText, if_pos rfl]

/-- Only the wildcard is read as such. -/
theorem ofText_eq_wildcard_iff : Key.ofText key = .wildcard ↔ key = wildcardText := by
  constructor
  · intro h
    by_cases hne : key = wildcardText
    · exact hne
    · obtain ⟨parenthetical, hkey⟩ := ofText_eq_property hne
      rw [hkey] at h
      cases h
  · rintro rfl
    exact ofText_wildcardText

/-- A key that is read as a property is about that property, and is optional as it is read. -/
theorem slotOf_of_property {name : String} {optional : Bool} {parenthetical : Option Described}
    (h : Key.ofText key = .property name optional parenthetical) :
    slotOf key = some name ∧ (IsOptional key ↔ optional = true) := by
  have hne : key ≠ wildcardText := by
    rintro rfl
    rw [ofText_wildcardText] at h
    cases h
  obtain ⟨parenthetical', hkey⟩ := ofText_eq_property hne
  rw [hkey] at h
  cases h
  exact ⟨if_neg hne, decide_eq_true_iff.symm⟩

end PromptDoc.Shorthand
