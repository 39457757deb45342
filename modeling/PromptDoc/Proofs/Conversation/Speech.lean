import PromptDoc.Proofs.Conversation.History
import PromptDoc.Proofs.Marker.Gaps

/-!
# What is said in the turns of a rendered text

Markers begin turns, and no two texts stand in a row between them, so a turn takes up one text at
most and no marker comes about by putting texts together. Main statements: what is said in the turns
of a rendered text are the texts between its role and history markers, in order
(`speeches_turnsOf`), and the messages made of them are not empty and hold no marker
(`toMessages_holds_no_marker`).
-/

namespace PromptDoc.Conversation

open Marker Outcome

/-- The text of a piece. -/
def pieceText? : Piece → Option (List Char)
  | .text cs => some cs
  | .marker _ => none

/-- The texts among some pieces. -/
def textsOf (ps : List Piece) : List (List Char) := ps.filterMap pieceText?

/-- The texts among some pieces are their texts. -/
theorem mem_textsOf {ps : List Piece} {cs : List Char} : cs ∈ textsOf ps ↔ .text cs ∈ ps := by
  rw [textsOf, List.mem_filterMap]
  constructor
  · rintro ⟨p, hp, hcs⟩
    cases p with
    | text t =>
      cases hcs
      exact hp
    | marker m => cases hcs
  · intro h
    exact ⟨_, h, rfl⟩

/-- What is said in a turn. -/
def Turn.speech? : Turn → Option (List Char)
  | .said _ source => if Text.allBlank source then none else some source
  | .earlier _ => none

/-- What is said in some turns. -/
def speeches (ts : List Turn) : List (List Char) := ts.filterMap Turn.speech?

/-! ### From pieces to turns -/

private theorem speeches_append (ts us : List Turn) :
    speeches (ts ++ us) = speeches ts ++ speeches us := List.filterMap_append

private theorem speeches_map_earlier (ms : List Message) : speeches (ms.map .earlier) = [] := by
  rw [speeches, List.filterMap_map, List.filterMap_eq_nil_iff]
  intro m _
  rfl

private theorem speeches_said (role : Role) (source : List Char) :
    speeches [.said role source] = if Text.allBlank source then [] else [source] := by
  rw [speeches, List.filterMap_cons, Turn.speech?]
  cases Text.allBlank source <;> rfl

/-- Closing a turn adds nothing to what is said. -/
theorem speeches_next (d : Draft) (ms : List Message) (speaker : Role) :
    speeches (d.next (ms.map .earlier) speaker).turns = speeches d.turns := by
  rw [Draft.turns_next, speeches_append, speeches_append, speeches_map_earlier, speeches_said]
  simp [Text.allBlank]

section Run

variable {history : List Message} {d e : Draft}

/-- A marker that begins a turn leaves an open turn in which nothing is said. -/
theorem speeches_add_marker {m : Marker} (hm : m.BeginsTurn) (hd : d.Settled)
    (h : d.add history (.marker m) = .ok e) :
    e.source = [] ∧ speeches e.turns = speeches d.turns := by
  cases m with
  | media arguments => exact hm.elim
  | placeholder arguments => exact hm.elim
  | history =>
    cases h
    have hnext := speeches_next d (history.map Message.asHistory) .model
    rw [List.map_map] at hnext
    exact ⟨rfl, hnext⟩
  | role name =>
    rw [Draft.add] at h
    split at h
    · cases h
    · next speaker _ =>
      split at h
      · next hblank =>
        cases h
        refine ⟨hd hblank, ?_⟩
        simp only [Draft.turns, speeches_append, speeches_said]
      · cases h
        exact ⟨rfl, speeches_next d [] speaker⟩

/-- A text is what is said in an open turn without text. -/
theorem speeches_add_text {cs : List Char} (hd : d.source = []) (hcs : Text.allBlank cs = false)
    (h : d.add history (.text cs) = .ok e) :
    e.source = cs ∧ speeches e.turns = speeches d.turns ++ [cs] := by
  cases h
  have hnil : Text.allBlank [] = true := rfl
  simp [Draft.turns, speeches_append, speeches_said, hd, hcs, hnil]

/-- A run over pieces says the texts among them. The open turn holds no text, or one that is not
blank and is followed by a marker: so each text finds an open turn without text. -/
theorem speeches_foldlM {ps : List Piece} (hsep : Separated ps)
    (htext : ∀ cs, .text cs ∈ ps → Text.allBlank cs = false)
    (hmarker : ∀ m, .marker m ∈ ps → m.BeginsTurn)
    (hd : d.source = [] ∨ Text.allBlank d.source = false ∧ MarkerFirst ps)
    (h : ps.foldlM (Draft.add history) d = .ok e) :
    speeches e.turns = speeches d.turns ++ textsOf ps := by
  induction ps generalizing d with
  | nil =>
    cases h
    exact (List.append_nil _).symm
  | cons p ps ih =>
    obtain ⟨next, hadd, hrun⟩ := foldlM_cons_eq_ok_iff.mp h
    have htext' := fun cs hcs ↦ htext cs (List.mem_cons_of_mem p hcs)
    have hmarker' := fun m hm ↦ hmarker m (List.mem_cons_of_mem p hm)
    cases p with
    | marker m =>
      have hsettled : d.Settled := by
        rcases hd with hnil | ⟨hspoken, -⟩
        · exact fun _ ↦ hnil
        · intro hblank
          rw [hspoken] at hblank
          cases hblank
      obtain ⟨hsource, hsame⟩ := speeches_add_marker (hmarker m List.mem_cons_self) hsettled hadd
      rw [ih hsep htext' hmarker' (.inl hsource) hrun, hsame]
      rfl
    | text cs =>
      have hnil : d.source = [] := by
        rcases hd with hnil | ⟨-, hfirst⟩
        · exact hnil
        · exact hfirst.elim
      have hcs := htext cs List.mem_cons_self
      obtain ⟨hsource, hmore⟩ := speeches_add_text hnil hcs hadd
      rw [ih hsep.2 htext' hmarker' (.inr ⟨by rw [hsource, hcs], hsep.1⟩) hrun, hmore,
        List.append_assoc]
      rfl

end Run

/-- What is said in the turns of a rendered text are the texts between its role and history markers,
in order. -/
theorem speeches_turnsOf {rendered : List Char} {history : List Message} {ts : List Turn}
    (h : turnsOf rendered history = .ok ts) : speeches ts = textsOf (splitTurns rendered) := by
  obtain ⟨d, hrun, rfl⟩ := map_eq_ok_iff.mp h
  exact speeches_foldlM (separated_split _ _) (fun _ hcs ↦ (text_mem_split hcs).1)
    (fun _ hm ↦ beginsTurn_of_mem_splitTurns hm) (.inl rfl) hrun

/-! ### From turns to messages -/

/-- A message of some turns is the message of one of them. -/
theorem exists_turn_of_mem_messagesOf {ts : List Turn} {ms : List Message}
    (h : messagesOf ts = .ok ms) {m : Message} (hm : m ∈ ms) :
    ∃ t ∈ ts, t.message? = .ok (some m) := by
  obtain ⟨os, hos, rfl⟩ := map_eq_ok_iff.mp h
  obtain ⟨o, ho, hom⟩ := List.mem_filterMap.mp hm
  obtain rfl : o = some m := hom
  exact exists_of_mem_mapM hos ho

/-- The message of a turn is taken over, or is made of what is said in it. -/
theorem Turn.message?_eq_ok_some {t : Turn} {m : Message} (h : t.message? = .ok (some m)) :
    t.earlier? = some m ∨
      ∃ source, t.speech? = some source ∧ partsOf source = .ok m.content ∧ m.metadata = none := by
  cases t with
  | earlier message =>
    cases h
    exact .inl rfl
  | said role source =>
    rw [Turn.message?] at h
    split at h
    · cases h
    · next hblank =>
      obtain ⟨parts, hparts, heq⟩ := map_eq_ok_iff.mp h
      cases heq
      exact .inr ⟨source, if_neg hblank, hparts, rfl⟩

/-- A message that is not tagged is made of a text of the rendered one. -/
theorem exists_text_of_mem_toMessages {rendered : String} {history messages : List Message}
    (h : toMessages rendered history = .ok messages) {m : Message} (hm : m ∈ messages)
    (htag : m.isHistory = false) :
    ∃ source, .text source ∈ splitTurns rendered.toList ∧ partsOf source = .ok m.content ∧
      m.metadata = none := by
  obtain ⟨ts, ms, hts, hms, rfl⟩ := toMessages_eq_ok_iff.mp h
  rcases mem_insertHistory hm with hmem | hmem
  · obtain ⟨t, ht, hmessage⟩ := exists_turn_of_mem_messagesOf hms hmem
    rcases Turn.message?_eq_ok_some hmessage with hearlier | ⟨source, hspeech, hparts, hnone⟩
    · have htagged := isHistory_of_mem_earlierOf hts (List.mem_filterMap.mpr ⟨t, ht, hearlier⟩)
      rw [htag] at htagged
      cases htagged
    · have hsource : source ∈ speeches ts := List.mem_filterMap.mpr ⟨t, ht, hspeech⟩
      rw [speeches_turnsOf hts] at hsource
      exact ⟨source, mem_textsOf.mp hsource, hparts, hnone⟩
  · obtain ⟨x, -, rfl⟩ := List.mem_map.mp hmem
    rw [x.isHistory_asHistory] at htag
    cases htag

/-! ### The parts of a text -/

/-- A text that is not blank has a piece that is kept. -/
theorem splitParts_ne_nil {source : List Char} (h : Text.allBlank source = false) :
    splitParts source ≠ [] := by
  intro hnil
  have hblank : ∀ p ∈ pieces partReader source, p.isBlank = true := by
    simpa [splitParts, split] using hnil
  have hall : Text.allBlank ((pieces partReader source).flatMap Piece.written) = true := by
    rw [Text.allBlank, List.all_flatMap, List.all_eq_true]
    intro p hp
    have hp := hblank p hp
    cases p with
    | text cs => exact hp
    | marker m => cases hp
  rw [flatMap_written_pieces, h] at hall
  cases hall

/-- A text that is not blank has a part. -/
theorem partsOf_ne_nil {source : List Char} {parts : List Part}
    (h : Text.allBlank source = false) (hparts : partsOf source = .ok parts) : parts ≠ [] := by
  rw [partsOf] at hparts
  obtain ⟨p, ps, hps⟩ := List.exists_cons_of_ne_nil (splitParts_ne_nil h)
  rw [hps] at hparts
  obtain ⟨part, rest, -, -, rfl⟩ := mapM_cons_eq_ok_iff.mp hparts
  exact List.cons_ne_nil _ _

/-- A part that is a text is a text between markers. -/
theorem text_mem_splitParts {source : List Char} {parts : List Part}
    (h : partsOf source = .ok parts) {text : String} {metadata : Option Annotations}
    (hpart : .text text metadata ∈ parts) : .text text.toList ∈ splitParts source := by
  obtain ⟨p, hp, heq⟩ := exists_of_mem_mapM h hpart
  cases p with
  | text cs =>
    cases heq
    rwa [String.toList_ofList]
  | marker m =>
    exfalso
    have hturn := not_beginsTurn_of_mem_splitParts hp
    cases m with
    | role name => exact hturn trivial
    | history => exact hturn trivial
    | media arguments =>
      rw [partOf, mediaPart] at heq
      split at heq <;> cases heq
    | placeholder arguments =>
      rw [partOf, sectionPart] at heq
      split at heq <;> cases heq

/-- The messages that a rendered text makes, tagged ones apart, have no metadata and are not empty,
and each text in them is not blank and holds no complete marker. -/
theorem toMessages_holds_no_marker {rendered : String} {history messages : List Message}
    (h : toMessages rendered history = .ok messages) {m : Message} (hm : m ∈ messages)
    (htag : m.isHistory = false) :
    m.metadata = none ∧ m.content ≠ [] ∧
      ∀ text metadata, .text text metadata ∈ m.content →
        (∃ c ∈ text.toList, Text.isBlank c = false) ∧
          ∀ mark : Marker, mark.IsComplete → ¬ mark.text <:+: text.toList := by
  obtain ⟨source, hsource, hparts, hnone⟩ := exists_text_of_mem_toMessages h hm htag
  refine ⟨hnone, partsOf_ne_nil (text_mem_split hsource).1 hparts, ?_⟩
  intro text metadata hpart
  have hpiece := text_mem_splitParts hparts hpart
  refine ⟨?_, fun mark hmark ↦ not_infix_of_mem_splits hsource hpiece hmark⟩
  have hblank := (text_mem_split hpiece).1
  simpa [Text.allBlank] using hblank

/-- A text in which one marker is cut up by another. -/
theorem toMessages_holds_no_marker_nested :
    let rendered := "<<<dotprompt:role:<<<dotprompt:role:system>>>user>>> Hi"
    let message := Message.ofText .system "user>>> Hi"
    toMessages rendered [] = .ok [.ofText .user "<<<dotprompt:role:", message] ∧
      message.metadata = none ∧ message.content ≠ [] ∧
        ∀ text metadata, .text text metadata ∈ message.content →
          (∃ c ∈ text.toList, Text.isBlank c = false) ∧
            ∀ mark : Marker, mark.IsComplete → ¬ mark.text <:+: text.toList := by
  intro rendered message
  have hrun : toMessages rendered [] = .ok [.ofText .user "<<<dotprompt:role:", message] := by cbv
  refine ⟨hrun, ?_⟩
  exact toMessages_holds_no_marker hrun (List.mem_cons_of_mem _ List.mem_cons_self) (by decide)

end PromptDoc.Conversation
