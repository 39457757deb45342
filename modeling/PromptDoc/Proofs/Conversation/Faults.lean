import PromptDoc.Proofs.Conversation.Contents
import PromptDoc.Proofs.Conversation.Independence

/-!
# Faulty markers

Rendered text makes no messages when a marker in it is faulty: a role marker that names no role, or
a media or section marker with the wrong number of fields. All roles are read before any part is, so
a misnamed role counts before a malformed marker in front of it. Main statement: a conversation
fails exactly with the first fault in this sense, whatever the earlier messages are
(`toMessages_eq_error_iff`).
-/

namespace PromptDoc.Conversation

open Marker Outcome

/-- What is wrong with a role marker: its name is no role's. -/
inductive Misnamed : Marker → MessageError → Prop
  | role {name : List Char} (h : ∀ r : Role, r.name ≠ String.ofList name) :
      Misnamed (.role name) (.role ⟨String.ofList name⟩)

/-- How many fields a marker has between single spaces, its closing apart. -/
def fieldCount (m : Marker) : Nat := m.body.count ' ' + 1

/-- What is wrong with a media or section marker: it does not have the fields that it should. -/
inductive Malformed : Marker → MessageError → Prop
  | media {arguments : List Char}
      (h : fieldCount (.media arguments) ≠ 2 ∧ fieldCount (.media arguments) ≠ 3) :
      Malformed (.media arguments)
        (.mediaFields (String.ofList (Marker.media arguments).body) (fieldCount (.media arguments)))
  | placeholder {arguments : List Char} (h : fieldCount (.placeholder arguments) ≠ 2) :
      Malformed (.placeholder arguments)
        (.sectionFields (String.ofList (Marker.placeholder arguments).body)
          (fieldCount (.placeholder arguments)))

/-! ### Which pieces are refused -/

/-- A marker's fields are as many as it has between single spaces. -/
theorem length_fields_body (m : Marker) : (Text.fields ' ' m.body).length = fieldCount m :=
  Text.length_fields ' ' m.body

/-- A piece is refused as part of a draft when it is a misnamed role marker. -/
theorem add_eq_error_iff {history : List Message} {d : Draft} {p : Piece} {e : MessageError} :
    d.add history p = .error e ↔ ∃ m, p.marker? = some m ∧ Misnamed m e := by
  cases p with
  | text cs =>
    refine iff_of_false (fun h ↦ by cases h) ?_
    rintro ⟨m, hm, -⟩
    cases hm
  | marker m =>
    simp only [Piece.marker?, Option.some.injEq, exists_eq_left']
    cases m with
    | history => exact iff_of_false (fun h ↦ by cases h) (fun h ↦ by cases h)
    | media arguments => exact iff_of_false (fun h ↦ by cases h) (fun h ↦ by cases h)
    | placeholder arguments => exact iff_of_false (fun h ↦ by cases h) (fun h ↦ by cases h)
    | role name =>
      rw [Draft.add]
      cases hname : Role.ofName (String.ofList name) with
      | error unknown =>
        obtain ⟨hnone, rfl⟩ := Role.ofName_eq_error_iff.mp hname
        constructor
        · intro h
          cases h
          exact .role hnone
        · intro h
          cases h
          rfl
      | ok speaker =>
        refine iff_of_false ?_ ?_
        · dsimp only
          split <;> exact fun h ↦ by cases h
        · rintro ⟨hnone⟩
          rw [Role.ofName_eq_error_iff.mpr ⟨hnone, rfl⟩] at hname
          cases hname

/-- A media marker is refused when it has neither two nor three fields. -/
theorem mediaPart_eq_error_iff {arguments : List Char} {e : MessageError} :
    mediaPart (.media arguments) = .error e ↔ Malformed (.media arguments) e := by
  have hcount := length_fields_body (.media arguments)
  rw [mediaPart]
  split
  · next heq =>
    rw [heq] at hcount
    refine iff_of_false (fun h ↦ by cases h) ?_
    rintro ⟨htwo, -⟩
    exact htwo hcount.symm
  · next heq =>
    rw [heq] at hcount
    refine iff_of_false (fun h ↦ by cases h) ?_
    rintro ⟨-, hthree⟩
    exact hthree hcount.symm
  · next hnottwo hnotthree =>
    have hfields : fieldCount (.media arguments) ≠ 2 ∧ fieldCount (.media arguments) ≠ 3 := by
      rw [← hcount]
      refine ⟨fun htwo ↦ ?_, fun hthree ↦ ?_⟩
      · obtain ⟨kind, url, heq⟩ := List.length_eq_two.mp htwo
        exact hnottwo kind url heq
      · obtain ⟨kind, url, content, heq⟩ := List.length_eq_three.mp hthree
        exact hnotthree kind url content heq
    rw [hcount]
    constructor
    · intro h
      cases h
      exact .media hfields
    · intro h
      cases h
      rfl

/-- A section marker is refused when it does not have two fields. -/
theorem sectionPart_eq_error_iff {arguments : List Char} {e : MessageError} :
    sectionPart (.placeholder arguments) = .error e ↔ Malformed (.placeholder arguments) e := by
  have hcount := length_fields_body (.placeholder arguments)
  rw [sectionPart]
  split
  · next heq =>
    rw [heq] at hcount
    refine iff_of_false (fun h ↦ by cases h) (fun h ↦ ?_)
    cases h with
    | placeholder hfields => exact hfields hcount.symm
  · next hnottwo =>
    have hfields : fieldCount (.placeholder arguments) ≠ 2 := by
      rw [← hcount]
      intro htwo
      obtain ⟨kind, name, heq⟩ := List.length_eq_two.mp htwo
      exact hnottwo kind name heq
    rw [hcount]
    constructor
    · intro h
      cases h
      exact .placeholder hfields
    · intro h
      cases h
      rfl

/-- A piece is refused as part of a message when it is a malformed marker. -/
theorem partOf_eq_error_iff {p : Piece} {e : MessageError} :
    partOf p = .error e ↔ ∃ m, p.marker? = some m ∧ Malformed m e := by
  cases p with
  | text cs =>
    refine iff_of_false (fun h ↦ by cases h) ?_
    rintro ⟨m, hm, -⟩
    cases hm
  | marker m =>
    simp only [Piece.marker?, Option.some.injEq, exists_eq_left']
    cases m with
    | role name => exact iff_of_false (fun h ↦ by cases h) (fun h ↦ by cases h)
    | history => exact iff_of_false (fun h ↦ by cases h) (fun h ↦ by cases h)
    | media arguments => exact mediaPart_eq_error_iff
    | placeholder arguments => exact sectionPart_eq_error_iff

/-! ### The first fault of a text -/

section Text

variable {rendered : List Char} {e : MessageError}

/-- The turns of a text cannot be told when a marker in it is misnamed. The first cut finds all role
markers of the layout, so the first of them that is misnamed is the first that is met. -/
theorem turnsOf_eq_error_iff {history : List Message} :
    turnsOf rendered history = .error e ↔
      FirstFault Misnamed (markersOf (layout rendered)) e := by
  have hturn : ∀ m ∈ markersOf (layout rendered), ∀ e, Misnamed m e →
      decide m.BeginsTurn = true := by
    rintro m - e ⟨h⟩
    rfl
  have hstep (d : Draft) (p : Piece) (e : MessageError) :
      d.add history p = .error e ↔ ∃ m, p.marker? = some m ∧ Misnamed m e := add_eq_error_iff
  show Except.map Draft.turns _ = _ ↔ _
  rw [map_eq_error_iff, foldlM_eq_error_iff hstep, ← firstFault_filterMap, ← markersOf, splitTurns,
    markersOf_split, ← filter_beginsTurn_layout, firstFault_filter hturn]

/-- What makes parts in a text cannot be made when a marker in it is malformed. -/
theorem mapM_partOf_layout_eq_error_iff :
    ((layout rendered).filter Piece.makesPart).mapM partOf = .error e ↔
      FirstFault Malformed (markersOf (layout rendered)) e := by
  have hmakes : ∀ p ∈ layout rendered, ∀ e, (∃ m, p.marker? = some m ∧ Malformed m e) →
      p.makesPart = true := by
    rintro p - e ⟨m, hm, hfault⟩
    cases p with
    | text cs => cases hm
    | marker mark =>
      cases hm
      cases hfault <;> rfl
  rw [mapM_eq_error_iff, firstFault_congr fun _ _ _ ↦ partOf_eq_error_iff, firstFault_filter hmakes,
    ← firstFault_filterMap, ← markersOf]

/-- The messages of turns cannot be made when a marker in their text is malformed. -/
theorem messagesOf_eq_error_iff {ts : List Turn} (h : turnsOf rendered [] = .ok ts) :
    messagesOf ts = .error e ↔ FirstFault Malformed (markersOf (layout rendered)) e := by
  rw [← mapM_partOf_layout_eq_error_iff, ← map_contentOf_of_turnsOf h, map_eq_error_iff]

end Text

/-- A conversation without earlier messages fails with the first misnamed role, or else with the
first malformed marker. -/
theorem toMessages_nil_eq_error_iff {rendered : String} {e : MessageError} :
    toMessages rendered [] = .error e ↔
      FirstFault Misnamed (markersOf (layout rendered.toList)) e ∨
        (∀ m ∈ markersOf (layout rendered.toList), ∀ e', ¬ Misnamed m e') ∧
          FirstFault Malformed (markersOf (layout rendered.toList)) e := by
  rw [toMessages_nil, bind_eq_error_iff, turnsOf_eq_error_iff]
  apply or_congr_right
  constructor
  · rintro ⟨ts, hts, hms⟩
    refine ⟨fun m hm e' hfault ↦ ?_, (messagesOf_eq_error_iff hts).mp hms⟩
    obtain ⟨first, hfirst⟩ := exists_firstFault_iff.mpr ⟨m, hm, e', hfault⟩
    rw [turnsOf_eq_error_iff.mpr hfirst] at hts
    cases hts
  · rintro ⟨hnamed, hfirst⟩
    cases hts : turnsOf rendered.toList [] with
    | ok ts => exact ⟨ts, rfl, (messagesOf_eq_error_iff hts).mpr hfirst⟩
    | error e' =>
      obtain ⟨m, hm, e, hfault⟩ := exists_firstFault_iff.mp ⟨e', turnsOf_eq_error_iff.mp hts⟩
      exact absurd hfault (hnamed m hm e)

/-- A conversation fails exactly when a marker of the rendered text's one layout is misnamed or
malformed. Its error is then the first misnamed role of the text, if there is one, and otherwise the
first malformed marker; the earlier messages do not matter. -/
theorem toMessages_eq_error_iff (rendered : String) (history : List Message) :
    (∀ ps, IsLayout rendered.toList ps ↔ ps = layout rendered.toList) ∧
    ((∃ e, toMessages rendered history = .error e) ↔
        ∃ m ∈ markersOf (layout rendered.toList), ∃ e, Misnamed m e ∨ Malformed m e) ∧
      ∀ e, toMessages rendered history = .error e ↔
        FirstFault Misnamed (markersOf (layout rendered.toList)) e ∨
          (∀ m ∈ markersOf (layout rendered.toList), ∀ e', ¬ Misnamed m e') ∧
            FirstFault Malformed (markersOf (layout rendered.toList)) e := by
  have hsame : ∀ e, toMessages rendered history = .error e ↔
      toMessages rendered [] = .error e := by
    intro e
    rw [← map_ownMessages_toMessages rendered history, map_eq_error_iff]
  have herror := fun e ↦ (hsame e).trans toMessages_nil_eq_error_iff
  refine ⟨fun _ ↦ isLayout_iff, ?_, herror⟩
  constructor
  · rintro ⟨e, he⟩
    rcases (herror e).mp he with hfirst | ⟨-, hfirst⟩
    · obtain ⟨m, hm, e', hfault⟩ := exists_firstFault_iff.mp ⟨e, hfirst⟩
      exact ⟨m, hm, e', .inl hfault⟩
    · obtain ⟨m, hm, e', hfault⟩ := exists_firstFault_iff.mp ⟨e, hfirst⟩
      exact ⟨m, hm, e', .inr hfault⟩
  · rintro ⟨m, hm, e, hfault⟩
    by_cases hnamed : ∃ m ∈ markersOf (layout rendered.toList), ∃ e, Misnamed m e
    · obtain ⟨first, hfirst⟩ := exists_firstFault_iff.mpr hnamed
      exact ⟨first, (herror first).mpr (.inl hfirst)⟩
    · have hnone : ∀ m ∈ markersOf (layout rendered.toList), ∀ e', ¬ Misnamed m e' :=
        fun m hm e' he' ↦ hnamed ⟨m, hm, e', he'⟩
      have hmalformed : Malformed m e := hfault.resolve_left (hnone m hm e)
      obtain ⟨first, hfirst⟩ := exists_firstFault_iff.mpr ⟨m, hm, e, hmalformed⟩
      exact ⟨first, (herror first).mpr (.inr ⟨hnone, hfirst⟩)⟩

/-- A misnamed role counts before a malformed marker in front of it. -/
example : toMessages "<<<dotprompt:section>>><<<dotprompt:role:elf>>>" [] =
    .error (.role ⟨"elf"⟩) := by cbv

end PromptDoc.Conversation
