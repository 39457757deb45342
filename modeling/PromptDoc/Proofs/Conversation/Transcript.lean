import Mathlib.Data.List.Chain
import PromptDoc.Proofs.Conversation.Turns
import PromptDoc.Proofs.Marker.Reading

/-!
# Transcripts

A transcript is a conversation written out with markers: each turn is its role marker followed by
its passages, which are texts, media markers and section markers. Main statement: a transcript is
read back as the turns it was written from, and a history marker between two of them is read as the
earlier messages, each tagged (`toMessages_transcript`).
-/

namespace PromptDoc.Conversation

open Marker

/-- Whether a text can stand in the arguments of a marker: nothing in it ends a field, a line or a
marker, and nothing in it begins one. -/
def IsPlain (s : String) : Prop := ∀ c ∈ s.toList, c ≠ ' ' ∧ c ≠ '\n' ∧ c ≠ '<' ∧ c ≠ '>'

/-- A passage of a written turn. -/
inductive Passage where
  | text (content : String)
  | media (url : String) (contentType : Option String)
  | placeholder (name : String)

namespace Passage

/-- A text says something and no marker begins in it; the arguments of markers are plain, a content
type is not blank, and a name is trimmed. -/
def WellFormed : Passage → Prop
  | text content => Text.isBlankText content = false ∧ Clear content.toList
  | media url contentType =>
    IsPlain url ∧ ∀ kind, contentType = some kind → IsPlain kind ∧ Text.isBlankText kind = false
  | placeholder name => IsPlain name ∧ Text.trimmed name = name

/-- Whether a passage is a text. -/
def isText : Passage → Bool
  | text _ => true
  | _ => false

/-- The passage as it is written. -/
def written : Passage → List Char
  | text content => content.toList
  | media url contentType => (Marker.ofMedia url contentType).text
  | placeholder name => (Marker.ofSection name).text

/-- The part that a passage stands for. -/
def part : Passage → Part
  | text content => .text content none
  | media url contentType => .media ⟨url, contentType⟩ none
  | placeholder name =>
    .pending (.ofList [(pendingKey, .bool true), (purposeKey, .string name)])

end Passage

/-- A written turn. Two texts in a row would be read as one, so none are. -/
structure Utterance where
  role : Role
  passages : List Passage
  nonempty : passages ≠ []
  wellFormed : ∀ p ∈ passages, p.WellFormed
  separated : passages.IsChain fun p q ↦ (p.isText && q.isText) = false

/-- What is written behind the role marker of a turn. -/
def Utterance.body (u : Utterance) : List Char := u.passages.flatMap Passage.written

/-- The turn as it is written. -/
def Utterance.written (u : Utterance) : List Char := (Marker.ofRole u.role.name).text ++ u.body

/-- The message that a written turn stands for. -/
def Utterance.message (u : Utterance) : Message := ⟨u.role, u.passages.map Passage.part, none⟩

/-- Some turns written one after another. -/
def transcript (us : List Utterance) : String := String.ofList (us.flatMap Utterance.written)

/-! ### Passages and pieces -/

namespace Passage

/-- The piece that a passage is read as. -/
def piece : Passage → Piece
  | text content => .text content.toList
  | media url contentType => .marker (.ofMedia url contentType)
  | placeholder name => .marker (.ofSection name)

-- The marker of a media passage has plain arguments behind a space.
private theorem ofMedia_eq {url : String} {contentType : Option String}
    (h : (media url contentType).WellFormed) :
    ∃ arguments, Marker.ofMedia url contentType = .media (' ' :: arguments) ∧
      ∀ c ∈ arguments, c ≠ '\n' ∧ c ≠ '<' ∧ c ≠ '>' := by
  cases contentType with
  | none => exact ⟨url.toList, rfl, fun c hc ↦ (h.1 c hc).2⟩
  | some kind =>
    obtain ⟨hkind, hblank⟩ := h.2 kind rfl
    have hempty : kind.isEmpty = false := by
      cases he : kind.isEmpty with
      | false => rfl
      | true =>
        rw [String.isEmpty_iff] at he
        subst he
        cases hblank
    refine ⟨url.toList ++ ' ' :: kind.toList, by simp [Marker.ofMedia, hempty], ?_⟩
    intro c hc
    rcases List.mem_append.mp hc with hu | hk
    · exact (h.1 c hu).2
    · rcases List.mem_cons.mp hk with rfl | hk
      · decide
      · exact (hkind c hk).2

private theorem notMem_space_cons {arguments : List Char} {z : Char} (hz : z ≠ ' ')
    (h : ∀ c ∈ arguments, c ≠ z) : z ∉ ' ' :: arguments := by
  intro hmem
  rcases List.mem_cons.mp hmem with rfl | hin
  · exact hz rfl
  · exact h z hin rfl

private theorem count_body_media {arguments : List Char} (h : '<' ∉ arguments) :
    (Marker.media arguments).body.count '<' = 3 := by
  rw [body, List.count_append, List.count_eq_zero_of_not_mem h]
  decide

private theorem count_body_placeholder {arguments : List Char} (h : '<' ∉ arguments) :
    (Marker.placeholder arguments).body.count '<' = 3 := by
  rw [body, List.count_append, List.count_eq_zero_of_not_mem h]
  decide

/-- A passage that is no text is read as its marker, whatever follows. -/
theorem read_written {p : Passage} (h : p.WellFormed) (hp : p.isText = false)
    (rest : List Char) :
    ∃ m, p.piece = .marker m ∧ partReader.read (p.written ++ rest) = some (m, rest) := by
  cases p with
  | text content => cases hp
  | media url contentType =>
    obtain ⟨arguments, hm, hplain⟩ := ofMedia_eq h
    refine ⟨_, rfl, ?_⟩
    rw [written, hm]
    exact readPart_media (notMem_space_cons (by decide) fun c hc ↦ (hplain c hc).2.2)
      (notMem_space_cons (by decide) fun c hc ↦ (hplain c hc).1)
  | placeholder name =>
    refine ⟨_, rfl, ?_⟩
    exact readPart_placeholder (notMem_space_cons (by decide) fun c hc ↦ (h.1 c hc).2.2.2)
      (notMem_space_cons (by decide) fun c hc ↦ (h.1 c hc).2.1)

/-- No marker that begins a turn is read within a passage that is no text. -/
theorem skips_written {p : Passage} (h : p.WellFormed) (hp : p.isText = false)
    (rest : List Char) : turnReader.Skips p.written rest := by
  cases p with
  | text content => cases hp
  | media url contentType =>
    obtain ⟨arguments, hm, hplain⟩ := ofMedia_eq h
    rw [written, hm]
    exact skips_text
      (count_body_media (notMem_space_cons (by decide) fun c hc ↦ (hplain c hc).2.1))
      (readTurn_media _ _)
  | placeholder name =>
    exact skips_text
      (count_body_placeholder (notMem_space_cons (by decide) fun c hc ↦ (h.1 c hc).2.2.1))
      (readTurn_placeholder _ _)

/-- No passage is written as blank text. -/
theorem isBlank_piece {p : Passage} (h : p.WellFormed) : p.piece.isBlank = false := by
  cases p with
  | text content => exact h.1
  | media url contentType => rfl
  | placeholder name => rfl

/-- A passage that is no text begins at a border. -/
theorem atBorder_written {p : Passage} (hp : p.isText = false) (rest : List Char) :
    AtBorder (p.written ++ rest) := by
  cases p with
  | text content => cases hp
  | media url contentType => exact atBorder_text_append _ _
  | placeholder name => exact atBorder_text_append _ _

end Passage

/-! ### The text of a turn -/

section Passages

variable {ps : List Passage} (hps : ∀ p ∈ ps, p.WellFormed)
  (hsep : ps.IsChain fun p q ↦ (p.isText && q.isText) = false)

-- What follows a text among the passages begins at a border.
private theorem atBorder_flatMap {p : Passage} {rest : List Char} (hp : p.isText = true)
    (hsep : (p :: ps).IsChain fun p q ↦ (p.isText && q.isText) = false)
    (hrest : AtBorder rest) : AtBorder (ps.flatMap Passage.written ++ rest) := by
  cases ps with
  | nil => exact hrest
  | cons q qs =>
    have hq : q.isText = false := by
      have := (List.isChain_cons_cons.mp hsep).1
      rwa [hp, Bool.true_and] at this
    rw [List.flatMap_cons, List.append_assoc]
    exact Passage.atBorder_written hq _

include hps hsep

/-- No marker that begins a turn is read within well-formed passages. -/
theorem skips_flatMap_written {rest : List Char} (hrest : AtBorder rest) :
    turnReader.Skips (ps.flatMap Passage.written) rest := by
  induction ps with
  | nil => exact True.intro
  | cons p ps ih =>
    have hp := hps p List.mem_cons_self
    have htail := ih (fun q hq ↦ hps q (List.mem_cons_of_mem p hq)) hsep.tail
    rw [List.flatMap_cons]
    refine Reader.Skips.append ?_ htail
    cases htext : p.isText with
    | false => exact Passage.skips_written hp htext _
    | true =>
      cases p with
      | text content => exact hp.2.skips (atBorder_flatMap htext hsep hrest) turnReader
      | media url contentType => cases htext
      | placeholder name => cases htext

/-- Well-formed passages are read back as their pieces. -/
theorem pieces_flatMap_written :
    pieces partReader (ps.flatMap Passage.written) = ps.map Passage.piece := by
  induction ps with
  | nil => simp [pieces]
  | cons p ps ih =>
    have hp := hps p List.mem_cons_self
    have htail := ih (fun q hq ↦ hps q (List.mem_cons_of_mem p hq)) hsep.tail
    rw [List.flatMap_cons, List.map_cons]
    cases htext : p.isText with
    | false =>
      obtain ⟨m, hm, hread⟩ := Passage.read_written hp htext (ps.flatMap Passage.written)
      rw [pieces_of_read hread, htail, hm]
    | true =>
      cases p with
      | media url contentType => cases htext
      | placeholder name => cases htext
      | text content =>
        have hborder := atBorder_flatMap htext hsep (.inl rfl)
        rw [List.append_nil] at hborder
        have hne : content.toList ≠ [] := by
          intro hnil
          have hblank : Text.allBlank content.toList = false := hp.1
          rw [hnil] at hblank
          cases hblank
        have hfirst : MarkerFirst (ps.map Passage.piece) := by
          cases ps with
          | nil => exact True.intro
          | cons q qs =>
            have := (List.isChain_cons_cons.mp hsep).1
            cases q with
            | text content' => cases this
            | media url contentType => exact True.intro
            | placeholder name => exact True.intro
        show pieces partReader (content.toList ++ _) = _
        rw [pieces_append_of_skips (hp.2.skips hborder partReader), htail,
          prependText_of_markerFirst hne hfirst]
        rfl

end Passages

private theorem notMem_space {s : String} (h : IsPlain s) : ' ' ∉ s.toList :=
  fun hmem ↦ (h ' ' hmem).1 rfl

private theorem fields_lead {lead arguments : List Char} (hlead : ' ' ∉ lead) :
    Text.fields ' ' (lead ++ ' ' :: arguments) = lead :: Text.fields ' ' arguments :=
  Text.fields_append_cons hlead

/-- A passage is read as its part. -/
theorem partOf_piece {p : Passage} (h : p.WellFormed) : partOf p.piece = .ok p.part := by
  cases p with
  | text content => simp [partOf, Passage.piece, Passage.part, Part.ofText]
  | media url contentType =>
    have hurl := notMem_space h.1
    cases contentType with
    | none =>
      show mediaPart (.media (' ' :: url.toList)) = _
      rw [mediaPart, body, fields_lead (by decide), Text.fields_of_notMem hurl]
      simp [Passage.part, Part.ofMedia]
    | some kind =>
      obtain ⟨hplain, hblank⟩ := h.2 kind rfl
      have hkind := notMem_space hplain
      have hnone : Text.allBlank kind.toList = false := hblank
      have hempty : kind.isEmpty = false := by
        rw [← Bool.not_eq_true, String.isEmpty_iff]
        rintro rfl
        cases hblank
      have hmarker : Marker.ofMedia url (some kind) =
          .media (' ' :: (url.toList ++ ' ' :: kind.toList)) := by
        simp [Marker.ofMedia, hempty]
      show partOf (.marker (Marker.ofMedia url (some kind))) = _
      rw [hmarker, partOf, mediaPart, body, fields_lead (by decide),
        Text.fields_append_cons hurl, Text.fields_of_notMem hkind]
      simp [hnone, Passage.part, Part.ofMedia]
  | placeholder name =>
    have hname : String.ofList (Text.trim name.toList) = name := h.2
    show sectionPart (.placeholder (' ' :: name.toList)) = _
    rw [sectionPart, body, fields_lead (by decide), Text.fields_of_notMem (notMem_space h.1)]
    simp only [hname]
    rfl

namespace Utterance

variable (u : Utterance)

/-- The text of a turn is not blank. -/
theorem allBlank_body : Text.allBlank u.body = false := by
  obtain ⟨p, ps, hps⟩ := List.exists_cons_of_ne_nil u.nonempty
  have hp := u.wellFormed p (by rw [hps]; exact List.mem_cons_self)
  have hwritten : Text.allBlank p.written = false := by
    cases htext : p.isText with
    | false =>
      -- A marker begins with a character that is not blank.
      obtain ⟨rest, hrest⟩ : opening <+: p.written := by
        rcases Passage.atBorder_written htext [] with hnil | hpre
        · obtain ⟨m, -, hread⟩ := Passage.read_written hp htext []
          rw [hnil] at hread
          cases hread
        · rwa [List.append_nil] at hpre
      rw [← hrest]
      rfl
    | true =>
      cases p with
      | text content => exact hp.1
      | media url contentType => cases htext
      | placeholder name => cases htext
  rw [body, hps, List.flatMap_cons, Text.allBlank, List.all_append]
  simp only [Text.allBlank] at hwritten
  rw [hwritten, Bool.false_and]

/-- No marker that begins a turn is read within the text of a turn. -/
theorem skips_body {rest : List Char} (hrest : AtBorder rest) : turnReader.Skips u.body rest :=
  skips_flatMap_written u.wellFormed u.separated hrest

/-- The text of a turn is read as its parts. -/
theorem partsOf_body : partsOf u.body = .ok (u.passages.map Passage.part) := by
  have hpieces := pieces_flatMap_written u.wellFormed u.separated
  have hsplit : splitParts u.body = u.passages.map Passage.piece := by
    rw [splitParts, split, body, hpieces, List.filter_eq_self]
    intro piece hpiece
    obtain ⟨p, hp, rfl⟩ := List.mem_map.mp hpiece
    rw [Passage.isBlank_piece (u.wellFormed p hp)]
    rfl
  rw [partsOf, hsplit]
  have hall := u.wellFormed
  generalize u.passages = ps at hall
  induction ps with
  | nil => rfl
  | cons p ps ih =>
    rw [List.map_cons, List.mapM_cons, partOf_piece (hall p List.mem_cons_self),
      ih fun q hq ↦ hall q (List.mem_cons_of_mem p hq)]
    rfl

/-- The pieces that a written turn is cut into. -/
def pieces : List Piece := [.marker (.ofRole u.role.name), .text u.body]

/-- The message of the turn that a written turn is read as. -/
theorem message?_said : (Turn.said u.role u.body).message? = .ok (some u.message) := by
  rw [Turn.message?, allBlank_body, partsOf_body]
  rfl

end Utterance

/-! ### Reading a transcript -/

-- A role's name is made of lower-case letters.
private theorem isLower_name (r : Role) : ∀ c ∈ r.name.toList, isLower c = true := by
  rw [← List.all_eq_true]
  cases r <;> decide

private theorem name_ne_nil (r : Role) : r.name.toList ≠ [] := by
  cases r <;> decide

-- A role marker is read back.
private theorem read_ofRole (r : Role) (rest : List Char) :
    turnReader.read ((Marker.ofRole r.name).text ++ rest) = some (.ofRole r.name, rest) :=
  readTurn_role (name_ne_nil r) (isLower_name r)

/-- Written turns begin at a border, if what follows them does. -/
theorem atBorder_flatMap_written (us : List Utterance) {rest : List Char}
    (hrest : AtBorder rest) : AtBorder (us.flatMap Utterance.written ++ rest) := by
  cases us with
  | nil => exact hrest
  | cons u us =>
    rw [List.flatMap_cons, Utterance.written, List.append_assoc, List.append_assoc]
    exact atBorder_text_append _ _

/-- Written turns are cut into a role marker and a text each. -/
theorem pieces_transcript (us : List Utterance) {rest : List Char} (hrest : AtBorder rest)
    (hfirst : MarkerFirst (pieces turnReader rest)) :
    pieces turnReader (us.flatMap Utterance.written ++ rest) =
      us.flatMap Utterance.pieces ++ pieces turnReader rest := by
  induction us with
  | nil => rfl
  | cons u us ih =>
    have hborder := atBorder_flatMap_written us hrest
    have hmarker : MarkerFirst (us.flatMap Utterance.pieces ++ pieces turnReader rest) := by
      cases us with
      | nil => exact hfirst
      | cons v vs => exact True.intro
    have hbody : u.body ≠ [] := by
      intro hnil
      have hblank := u.allBlank_body
      rw [hnil] at hblank
      cases hblank
    rw [List.flatMap_cons, List.flatMap_cons, Utterance.written, List.append_assoc,
      List.append_assoc, pieces_of_read (read_ofRole u.role _),
      pieces_append_of_skips (u.skips_body hborder), ih,
      prependText_of_markerFirst hbody hmarker]
    rfl

/-- A whole transcript is cut into a role marker and a text for each turn. -/
theorem pieces_flatMap_written_turns (us : List Utterance) :
    pieces turnReader (us.flatMap Utterance.written) = us.flatMap Utterance.pieces := by
  have hnil : pieces turnReader [] = [] := by simp [pieces]
  have hpieces := pieces_transcript us (.inl rfl) (by rw [hnil]; trivial)
  rwa [hnil, List.append_nil, List.append_nil] at hpieces

/-- None of the pieces of written turns is blank. -/
theorem filter_flatMap_pieces (us : List Utterance) :
    (us.flatMap Utterance.pieces).filter (fun p ↦ !p.isBlank) = us.flatMap Utterance.pieces := by
  rw [List.filter_eq_self]
  intro piece hpiece
  obtain ⟨u, -, hu⟩ := List.mem_flatMap.mp hpiece
  simp only [Utterance.pieces, List.mem_cons, List.not_mem_nil, or_false] at hu
  rcases hu with rfl | rfl
  · rfl
  · rw [Piece.isBlank, u.allBlank_body]
    rfl

/-- Taking up written turns leaves them as the spoken turns of the draft. -/
theorem foldlM_add_pieces (history : List Message) (us : List Utterance) {d : Draft}
    (hd : d.Settled) :
    ∃ e, (us.flatMap Utterance.pieces).foldlM (Draft.add history) d = .ok e ∧ e.Settled ∧
      e.spoken = d.spoken ++ us.map fun u ↦ .said u.role u.body := by
  induction us generalizing d with
  | nil => exact ⟨d, rfl, hd, by simp⟩
  | cons u us ih =>
    obtain ⟨d₁, hrole, hspeaker, hsource, hspoken₁⟩ := Draft.add_role history hd u.role
    obtain ⟨d₂, htext, hsettled, hspoken₂⟩ := Draft.add_text history hsource u.allBlank_body
    obtain ⟨e, hrun, he, hspoken⟩ := ih hsettled
    refine ⟨e, ?_, he, ?_⟩
    · rw [List.flatMap_cons, Utterance.pieces, List.cons_append, List.cons_append,
        List.nil_append, List.foldlM_cons, hrole]
      show (Piece.text u.body :: us.flatMap Utterance.pieces).foldlM (Draft.add history) d₁ = _
      rw [List.foldlM_cons, htext]
      exact hrun
    · rw [hspoken, hspoken₂, hspoken₁, hspeaker, List.append_assoc, List.map_cons]
      rfl

/-- The messages of the turns that written turns are read as. -/
theorem messagesOf_said (us : List Utterance) :
    messagesOf (us.map fun u ↦ .said u.role u.body) = .ok (us.map Utterance.message) := by
  induction us with
  | nil => rfl
  | cons u us ih =>
    rw [List.map_cons, messagesOf_cons, u.message?_said, ih]
    rfl

/-- The messages of a draft are those of its spoken turns. -/
theorem messagesOf_turns (d : Draft) : messagesOf d.turns = messagesOf d.spoken :=
  (messagesOf_filter_not_isSilent d.turns).symm

-- The conversation of a text is that of its spoken turns.
private theorem toMessages_of_run {text : List Char} {history : List Message} {d : Draft}
    {ms : List Message} (hrun : (splitTurns text).foldlM (Draft.add history) {} = .ok d)
    (hms : messagesOf d.spoken = .ok ms) :
    toMessages (String.ofList text) history = .ok (insertHistory ms history) := by
  rw [toMessages_eq, String.toList_ofList, turnsOf, hrun]
  show (messagesOf d.turns).map _ = _
  rw [messagesOf_turns, hms]
  rfl

-- Where the earlier messages stand already nothing is put in.
private theorem insertHistory_around (before after history : List Message) :
    insertHistory (before ++ history.map Message.asHistory ++ after) history =
      before ++ history.map Message.asHistory ++ after := by
  cases history with
  | nil => rfl
  | cons m ms =>
    have hpresent : hasHistory (before ++ (m :: ms).map Message.asHistory ++ after) = true := by
      simp [hasHistory]
    rw [insertHistory, hpresent, Bool.or_true, if_pos rfl]

-- The pieces of two transcripts with a history marker between them.
private theorem splitTurns_around_history (us vs : List Utterance) :
    splitTurns (us.flatMap Utterance.written ++
        (Marker.history.text ++ vs.flatMap Utterance.written)) =
      us.flatMap Utterance.pieces ++ .marker .history :: vs.flatMap Utterance.pieces := by
  have hhistory : pieces turnReader (Marker.history.text ++ vs.flatMap Utterance.written) =
      .marker .history :: vs.flatMap Utterance.pieces := by
    rw [pieces_of_read (readTurn_history _), pieces_flatMap_written_turns]
  have hfirst : MarkerFirst (pieces turnReader
      (Marker.history.text ++ vs.flatMap Utterance.written)) := by
    rw [hhistory]
    trivial
  rw [splitTurns, split, pieces_transcript us (atBorder_text_append _ _) hfirst, hhistory,
    List.filter_append, List.filter_cons_of_pos rfl, filter_flatMap_pieces, filter_flatMap_pieces]

/-- A transcript is read as the messages of its turns. With a history marker in front of any of the
turns, or behind the last, the earlier messages are read there, each tagged. -/
theorem toMessages_transcript (us : List Utterance) :
    toMessages (transcript us) [] = .ok (us.map Utterance.message) ∧
      ∀ (n : Nat) (history : List Message),
        toMessages (transcript (us.take n) ++ Marker.history.toString ++ transcript (us.drop n))
            history =
          .ok ((us.take n).map Utterance.message ++ history.map Message.asHistory ++
            (us.drop n).map Utterance.message) := by
  constructor
  · have hsplit : splitTurns (us.flatMap Utterance.written) = us.flatMap Utterance.pieces := by
      rw [splitTurns, split, pieces_flatMap_written_turns, filter_flatMap_pieces]
    obtain ⟨d, hrun, -, hspoken⟩ := foldlM_add_pieces [] us Draft.settled_fresh
    have hms : messagesOf d.spoken = .ok (us.map Utterance.message) := by
      rw [hspoken, Draft.spoken_fresh, List.nil_append, messagesOf_said]
    rw [transcript, toMessages_of_run (by rw [hsplit]; exact hrun) hms]
    rfl
  · intro n history
    generalize us.take n = before, us.drop n = after
    obtain ⟨d₁, hrun₁, -, hspoken₁⟩ := foldlM_add_pieces history before Draft.settled_fresh
    obtain ⟨d₂, hadd, hsettled, hspoken₂⟩ := Draft.add_history history d₁
    obtain ⟨d₃, hrun₃, -, hspoken₃⟩ := foldlM_add_pieces history after hsettled
    have hrun : (before.flatMap Utterance.pieces ++
        .marker .history :: after.flatMap Utterance.pieces).foldlM (Draft.add history) {} =
          .ok d₃ := by
      rw [List.foldlM_append, hrun₁]
      show (Piece.marker .history :: after.flatMap Utterance.pieces).foldlM (Draft.add history) d₁ =
        _
      rw [List.foldlM_cons, hadd]
      exact hrun₃
    have hms : messagesOf d₃.spoken = .ok (before.map Utterance.message ++
        history.map Message.asHistory ++ after.map Utterance.message) := by
      rw [hspoken₃, hspoken₂, hspoken₁, Draft.spoken_fresh, List.nil_append, messagesOf_append,
        messagesOf_append, messagesOf_said, messagesOf_earlier, messagesOf_said]
      rfl
    have htext : transcript before ++ Marker.history.toString ++ transcript after =
        String.ofList (before.flatMap Utterance.written ++
          (Marker.history.text ++ after.flatMap Utterance.written)) := by
      simp [transcript, Marker.toString, String.ofList_append, String.append_assoc]
    rw [htext, toMessages_of_run (by rw [splitTurns_around_history]; exact hrun) hms,
      insertHistory_around]

end PromptDoc.Conversation
