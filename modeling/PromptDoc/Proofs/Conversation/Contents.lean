import PromptDoc.Proofs.Conversation.Speech
import PromptDoc.Proofs.Marker.Layout

/-!
# What the messages of a rendered text hold

The parts of the messages, put in a row, are made by the layout of the rendered text without its
blank texts and the markers that begin turns: each text makes a part, and so does each media and
each section marker. Main statement: of what stands between the markers nothing is lost and nothing
is said twice (`toMessages_conserves`).
-/

namespace PromptDoc.Conversation

open Marker Outcome

/-- The parts of some messages, in order. -/
def contentOf (ms : List Message) : List Part := ms.flatMap Message.content

/-- The texts among some parts. -/
def textsIn (parts : List Part) : List (List Char) :=
  (parts.filterMap Part.text?).map String.toList

/-! ### From turns to parts -/

/-- The parts of a turn that takes nothing over are those of what is said in it. -/
theorem map_contentOf_message? {t : Turn} (h : t.earlier? = none) :
    t.message?.map (fun o ↦ contentOf o.toList) =
      (t.speech?.toList.flatMap splitParts).mapM partOf := by
  cases t with
  | earlier m => cases h
  | said role source =>
    rw [Turn.message?, Turn.speech?]
    cases Text.allBlank source with
    | true => rfl
    | false =>
      show _ = ([source].flatMap splitParts).mapM partOf
      rw [List.flatMap_singleton, ← partsOf]
      cases partsOf source with
      | error e => rfl
      | ok parts => exact congrArg Except.ok (List.flatMap_singleton Message.content _)

/-- The parts of turns that take nothing over are those of what is said in them. -/
theorem map_contentOf_messagesOf {ts : List Turn} (h : earlierOf ts = []) :
    (messagesOf ts).map contentOf = ((speeches ts).flatMap splitParts).mapM partOf := by
  induction ts with
  | nil => rfl
  | cons t ts ih =>
    rw [earlierOf, List.filterMap_eq_nil_iff, List.forall_mem_cons] at h
    have hfirst := map_contentOf_message? h.1
    have hrest := ih (List.filterMap_eq_nil_iff.mpr h.2)
    have hspeeches : speeches (t :: ts) = t.speech?.toList ++ speeches ts := by
      rw [speeches, List.filterMap_cons]
      cases t.speech? <;> rfl
    rw [hspeeches, List.flatMap_append, List.mapM_append, ← hfirst, ← hrest, messagesOf_cons]
    cases t.message? with
    | error e => rfl
    | ok o =>
      cases messagesOf ts with
      | error e => rfl
      | ok ms => exact congrArg Except.ok List.flatMap_append

/-- The texts that the first cut keeps, cut again, leave what makes parts in the layout. -/
theorem flatMap_splitParts_textsOf (cs : List Char) :
    (textsOf (splitTurns cs)).flatMap splitParts = (layout cs).filter Piece.makesPart := by
  rw [filter_makesPart_layout, textsOf]
  induction splitTurns cs with
  | nil => rfl
  | cons p ps ih =>
    rw [List.flatMap_cons, ← ih]
    cases p with
    | marker m => rfl
    | text ds => rfl

/-- A rendered text without earlier messages makes the parts that its layout makes, if its turns can
be told. -/
theorem map_contentOf_of_turnsOf {rendered : List Char} {ts : List Turn}
    (h : turnsOf rendered [] = .ok ts) :
    (messagesOf ts).map contentOf = ((layout rendered).filter Piece.makesPart).mapM partOf := by
  have hearlier : earlierOf ts = [] := by
    rw [earlierOf_turnsOf h, List.flatten_eq_nil_iff]
    intro block hblock
    exact List.eq_of_mem_replicate hblock
  rw [map_contentOf_messagesOf hearlier, speeches_turnsOf h, flatMap_splitParts_textsOf]

/-- Without earlier messages a conversation is what its turns make. -/
theorem toMessages_nil (rendered : String) :
    toMessages rendered [] = turnsOf rendered.toList [] >>= messagesOf := by
  rw [toMessages_eq]
  cases turnsOf rendered.toList [] >>= messagesOf <;> rfl

/-! ### What a piece makes -/

/-- What a part is made by: a text by the same text, a medium by a media marker, and a pending part
by a section marker. -/
inductive Makes : Piece → Part → Prop
  | text (cs : List Char) : Makes (.text cs) (.ofText (String.ofList cs))
  | media (arguments : List Char) (media : Media) :
      Makes (.marker (.media arguments)) (.media media none)
  | placeholder (arguments : List Char) (flags : Annotations) :
      Makes (.marker (.placeholder arguments)) (.pending flags)

/-- A part is made by the piece that it is the part of. -/
theorem makes_of_partOf {p : Piece} {part : Part} (hp : p.makesPart = true)
    (h : partOf p = .ok part) : Makes p part := by
  cases p with
  | text cs =>
    cases h
    exact .text cs
  | marker m =>
    have hturn : ¬ m.BeginsTurn := by simpa [Piece.makesPart] using hp
    cases m with
    | role name => exact (hturn trivial).elim
    | history => exact (hturn trivial).elim
    | media arguments =>
      rw [partOf, mediaPart] at h
      split at h
      · cases h
        exact .media ..
      · cases h
        exact .media ..
      · cases h
    | placeholder arguments =>
      rw [partOf, sectionPart] at h
      split at h
      · cases h
        exact .placeholder ..
      · cases h

/-- The parts of a conversation without earlier messages are made by the layout of its text. -/
theorem forall₂_makes {rendered : String} {messages : List Message}
    (h : toMessages rendered [] = .ok messages) :
    List.Forall₂ Makes ((layout rendered.toList).filter Piece.makesPart) (contentOf messages) := by
  rw [toMessages_nil] at h
  obtain ⟨ts, hts, hms⟩ := bind_eq_ok_iff.mp h
  have hparts := map_contentOf_of_turnsOf hts
  rw [hms] at hparts
  have hrun := mapM_eq_ok_iff.mp hparts.symm
  have hmakes := (List.forall₂_and_left _ _).mpr ⟨fun p hp ↦ (List.mem_filter.mp hp).2, hrun⟩
  exact hmakes.imp fun p part hpart ↦ makes_of_partOf hpart.1 hpart.2

/-! ### Nothing is lost -/

/-- Some parts are what a layout holds beside the markers that begin turns. -/
structure Conserves (laid : List Piece) (parts : List Part) : Prop where
  /-- The texts of the parts are the texts between the markers that are not blank. -/
  texts : textsIn parts = (textsOf laid).filter fun cs ↦ !Text.allBlank cs
  /-- Each character outside the markers that is not white space is there once, in order. -/
  characters : (textsIn parts).flatten.filter (fun c ↦ !Text.isBlank c) =
    (textsOf laid).flatten.filter fun c ↦ !Text.isBlank c
  /-- The other parts are made by the media and section markers, one by each, in order. -/
  others : List.Forall₂ (fun m part ↦ Makes (.marker m) part)
    ((markersOf laid).filter fun m ↦ ¬ m.BeginsTurn) (parts.filter fun part ↦ part.text?.isNone)

/-- Leaving out blank texts leaves all characters that are not blank. -/
theorem filter_flatten_filter_allBlank (css : List (List Char)) :
    (css.filter fun cs ↦ !Text.allBlank cs).flatten.filter (fun c ↦ !Text.isBlank c) =
      css.flatten.filter fun c ↦ !Text.isBlank c := by
  induction css with
  | nil => rfl
  | cons cs css ih =>
    rw [List.flatten_cons, List.filter_append, ← ih]
    cases hcs : Text.allBlank cs with
    | false => rw [List.filter_cons_of_pos (by simp [hcs]), List.flatten_cons, List.filter_append]
    | true =>
      have hnone : cs.filter (fun c ↦ !Text.isBlank c) = [] := by
        rw [List.filter_eq_nil_iff]
        intro c hc
        simp [List.all_eq_true.mp hcs c hc]
      rw [List.filter_cons_of_neg (by simp [hcs]), hnone, List.nil_append]

/-- The texts that make parts are those that are not blank. -/
theorem textsOf_filter_makesPart (ps : List Piece) :
    textsOf (ps.filter Piece.makesPart) = (textsOf ps).filter fun cs ↦ !Text.allBlank cs := by
  rw [textsOf, textsOf, List.filterMap_filter, List.filter_filterMap]
  congr 1
  funext p
  cases p <;> simp [Piece.makesPart, pieceText?, Option.filter]

/-- The markers that make parts are those that begin no turns. -/
theorem markersOf_filter_makesPart (ps : List Piece) :
    markersOf (ps.filter Piece.makesPart) = (markersOf ps).filter fun m ↦ ¬ m.BeginsTurn := by
  rw [markersOf, markersOf, List.filterMap_filter, List.filter_filterMap]
  congr 1
  funext p
  cases p <;> simp [Piece.makesPart, Piece.marker?, Option.filter]

section makes

variable {ps : List Piece} {parts : List Part} (h : List.Forall₂ Makes ps parts)

include h

/-- Pieces make parts with their texts. -/
theorem textsIn_of_makes : textsIn parts = textsOf ps := by
  induction h with
  | nil => rfl
  | cons hmakes hrest ih =>
    cases hmakes with
    | text cs =>
      show (String.ofList cs).toList :: textsIn _ = cs :: textsOf _
      rw [String.toList_ofList, ih]
    | media arguments media => exact ih
    | placeholder arguments flags => exact ih

/-- Pieces make parts without text by their markers. -/
theorem others_of_makes :
    List.Forall₂ (fun m part ↦ Makes (.marker m) part) (markersOf ps)
      (parts.filter fun part ↦ part.text?.isNone) := by
  induction h with
  | nil => exact .nil
  | cons hmakes hrest ih =>
    cases hmakes with
    | text cs => exact ih
    | media arguments media => exact .cons (.media arguments media) ih
    | placeholder arguments flags => exact .cons (.placeholder arguments flags) ih

end makes

/-- The one layout of a rendered text makes up the text, with markers between its texts, and the
messages of the text hold what the layout holds: each text that is not blank, each character that is
not white space, and a part for each media and section marker, all once and in order. -/
theorem toMessages_conserves {rendered : String} {messages : List Message}
    (h : toMessages rendered [] = .ok messages) :
    (∀ ps, IsLayout rendered.toList ps ↔ ps = layout rendered.toList) ∧
      (layout rendered.toList).flatMap Piece.written = rendered.toList ∧
      Separated (layout rendered.toList) ∧
      Conserves (layout rendered.toList) (contentOf messages) := by
  have hmakes := forall₂_makes h
  have htexts := textsIn_of_makes hmakes
  have hothers := others_of_makes hmakes
  rw [textsOf_filter_makesPart] at htexts
  rw [markersOf_filter_makesPart] at hothers
  refine ⟨fun _ ↦ isLayout_iff, flatMap_written_layout _, separated_layout _, htexts, ?_, hothers⟩
  rw [htexts, filter_flatten_filter_allBlank]

/-- A text with a blank stretch between its markers and a closing that closes nothing. -/
theorem toMessages_conserves_closing :
    let rendered := "a<<<dotprompt:section s>>> <<<dotprompt:role:tool>>>>>>"
    let messages := [⟨.user, [.ofText "a", .ofSection "s"], none⟩, .ofText .tool ">>>"]
    toMessages rendered [] = .ok messages ∧
      Conserves (layout rendered.toList) (contentOf messages) ∧
      textsOf (layout rendered.toList) = [['a'], [' '], ['>', '>', '>']] := by
  intro rendered messages
  have hrun : toMessages rendered [] = .ok messages := by cbv
  exact ⟨hrun, (toMessages_conserves hrun).2.2.2, by cbv⟩

end PromptDoc.Conversation
