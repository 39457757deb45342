import PromptDoc.Proofs.Marker.Gaps

/-!
# Cutting a text at its markers

To cut a text at the markers of a kind is to take its first marker, to leave the text in front of
it, and to cut the text behind it. The first marker is the leftmost one, and of those that begin at
the same place the shortest, so the arguments of a media marker end at the first closing. This says
what a cut is without saying how it is found. Main statement: a text has one cut, and it is what the
readers of turns and of parts find (`cut_turns_iff`, `cut_parts_iff`).
-/

namespace PromptDoc.Marker

/-- The first marker of a kind in a text, with the text in front of it and behind it. -/
structure First (kind : Marker → Prop) (cs before : List Char) (m : Marker) (rest : List Char) :
    Prop where
  written : cs = before ++ (m.text ++ rest)
  complete : m.IsComplete
  ofKind : kind m
  /-- No marker of the kind begins further to the left. -/
  leftmost : ∀ before' m' rest', cs = before' ++ (m'.text ++ rest') → m'.IsComplete → kind m' →
    before.length ≤ before'.length
  /-- No marker of the kind that begins at the same place is shorter. -/
  shortest : ∀ m' rest', m.text ++ rest = m'.text ++ rest' → m'.IsComplete → kind m' →
    m.text.length ≤ m'.text.length

/-- A text as pieces: it is one piece, or none if there is nothing in it. -/
def textPieces (cs : List Char) : List Piece := if cs.isEmpty then [] else [.text cs]

/-- The pieces of a text that is cut at the markers of a kind. -/
inductive Cut (kind : Marker → Prop) : List Char → List Piece → Prop
  | whole {cs : List Char} (h : ∀ m : Marker, m.IsComplete → kind m → ¬ m.text <:+: cs) :
    Cut kind cs (textPieces cs)
  | first {cs before rest : List Char} {m : Marker} {ps : List Piece}
    (h : First kind cs before m rest) (hrest : Cut kind rest ps) :
    Cut kind cs (textPieces before ++ .marker m :: ps)

/-- A reader takes the markers of a kind: what it reads is one of them, and where one stands it
reads the shortest that stands there. -/
structure Reader.Takes (r : Reader) (kind : Marker → Prop) : Prop where
  sound : ∀ {cs rest m}, r.read cs = some (m, rest) → m.IsComplete ∧ kind m
  shortest : ∀ {m : Marker}, m.IsComplete → kind m → ∀ rest, ∃ m' rest',
    r.read (m.text ++ rest) = some (m', rest') ∧ m'.text.length ≤ m.text.length

/-! ### Readers and cuts -/

/-- Different markers are written differently. -/
theorem text_inj {m m' : Marker} (h : m.text = m'.text) : m = m' := by
  cases m <;> cases m' <;>
    simp_all [text, body, roleLead, historyLead, mediaLead, placeholderLead, opening]

/-- Nothing is read within a skipped text. -/
theorem Reader.skips_iff {r : Reader} {cs rest : List Char} :
    r.Skips cs rest ↔ ∀ s t, cs = s ++ t → t ≠ [] → r.read (t ++ rest) = none := by
  induction cs with
  | nil =>
    refine iff_of_true trivial ?_
    intro s t h ht
    exact absurd (List.append_eq_nil_iff.mp h.symm).2 ht
  | cons c cs ih =>
    rw [Reader.Skips, ih]
    constructor
    · rintro ⟨hfront, hlater⟩ s t h ht
      cases s with
      | nil =>
        rw [List.nil_append] at h
        rw [← h]
        exact hfront
      | cons d s => exact hlater s t (List.cons.inj h).2 ht
    · intro h
      refine ⟨h [] (c :: cs) rfl (List.cons_ne_nil c cs), ?_⟩
      intro s t heq ht
      exact h (c :: s) t (congrArg (c :: ·) heq) ht

/-- A text is skipped up to its end or up to the first marker that is read. -/
theorem Reader.skips_or_read (r : Reader) (cs : List Char) :
    r.Skips cs [] ∨ ∃ before m rest, cs = before ++ (m.text ++ rest) ∧
      r.Skips before (m.text ++ rest) ∧ r.read (m.text ++ rest) = some (m, rest) := by
  induction cs with
  | nil => exact .inl trivial
  | cons c cs ih =>
    cases hread : r.read (c :: cs) with
    | some p =>
      obtain ⟨m, rest⟩ := p
      have heq := r.eq_append hread
      rw [heq] at hread
      exact .inr ⟨[], m, rest, heq, trivial, hread⟩
    | none =>
      rcases ih with hskips | ⟨before, m, rest, rfl, hskips, hmarker⟩
      · refine .inl ⟨?_, hskips⟩
        rwa [List.append_nil]
      · exact .inr ⟨c :: before, m, rest, rfl, ⟨hread, hskips⟩, hmarker⟩

/-- A text in front of a marker, or of nothing, is a piece. -/
theorem prependText_eq {cs : List Char} {ps : List Piece} (hps : MarkerFirst ps) :
    prependText cs ps = textPieces cs ++ ps := by
  cases cs with
  | nil => rfl
  | cons c cs => exact prependText_of_markerFirst (List.cons_ne_nil c cs) hps

/-- The pieces of a text that is skipped to its end. -/
theorem pieces_of_skips {r : Reader} {cs : List Char} (h : r.Skips cs []) :
    pieces r cs = textPieces cs := by
  have hfirst : MarkerFirst [] := trivial
  have hpieces := pieces_append_of_skips h
  rw [List.append_nil, pieces, prependText_eq hfirst, List.append_nil] at hpieces
  exact hpieces

/-- The pieces of a text that is skipped up to a marker that is read. -/
theorem pieces_of_skips_read {r : Reader} {before rest : List Char} {m : Marker}
    (hskips : r.Skips before (m.text ++ rest)) (hread : r.read (m.text ++ rest) = some (m, rest)) :
    pieces r (before ++ (m.text ++ rest)) = textPieces before ++ .marker m :: pieces r rest := by
  have hfirst : MarkerFirst (.marker m :: pieces r rest) := trivial
  rw [pieces_append_of_skips hskips, pieces_of_read hread, prependText_eq hfirst]

namespace Reader.Takes

variable {r : Reader} {kind : Marker → Prop} (h : r.Takes kind) {cs before rest : List Char}
  {m : Marker} {ps : List Piece}

include h

/-- A text without a marker of the kind is skipped, and the other way round. -/
theorem skips_iff_not_infix :
    r.Skips cs [] ↔ ∀ m : Marker, m.IsComplete → kind m → ¬ m.text <:+: cs := by
  rw [Reader.skips_iff]
  constructor
  · rintro hnone m hm hkind ⟨s, t, heq⟩
    obtain ⟨m', rest', hread, -⟩ := h.shortest hm hkind t
    have hne : m.text ++ t ≠ [] := by
      apply List.append_ne_nil_of_left_ne_nil
      exact List.ne_nil_of_length_pos m.text_length_pos
    have hskipped := hnone s (m.text ++ t) (by rw [← heq, List.append_assoc]) hne
    rw [List.append_nil, hread] at hskipped
    cases hskipped
  · intro hnone s t heq _
    rw [List.append_nil]
    cases hread : r.read t with
    | none => rfl
    | some p =>
      obtain ⟨m, rest⟩ := p
      obtain ⟨hm, hkind⟩ := h.sound hread
      refine absurd ⟨s, rest, ?_⟩ (hnone m hm hkind)
      rw [heq, r.eq_append hread, List.append_assoc]

/-- The marker that is read behind a skipped text is the first one. -/
theorem first_of_read (hskips : r.Skips before (m.text ++ rest))
    (hread : r.read (m.text ++ rest) = some (m, rest)) :
    First kind (before ++ (m.text ++ rest)) before m rest := by
  obtain ⟨hm, hkind⟩ := h.sound hread
  refine ⟨rfl, hm, hkind, ?_, ?_⟩
  · intro before' m' rest' heq hm' hkind'
    refine Nat.not_lt.mp fun hlt ↦ ?_
    -- a marker further to the left begins within the skipped text
    rcases List.append_eq_append_iff.mp heq with ⟨t, hbefore, -⟩ | ⟨t, hbefore, htail⟩
    · rw [hbefore, List.length_append] at hlt
      omega
    · have ht : t ≠ [] := by
        rintro rfl
        rw [hbefore, List.append_nil] at hlt
        exact Nat.lt_irrefl _ hlt
      obtain ⟨_, _, hread', -⟩ := h.shortest hm' hkind' rest'
      have hnone := Reader.skips_iff.mp hskips before' t hbefore ht
      rw [← htail, hread'] at hnone
      cases hnone
  · intro m' rest' heq hm' hkind'
    obtain ⟨m'', rest'', hread', hle⟩ := h.shortest hm' hkind' rest'
    rw [← heq, hread] at hread'
    cases hread'
    exact hle

/-- Up to the first marker a text is skipped. -/
theorem skips_of_first (hfirst : First kind cs before m rest) :
    r.Skips before (m.text ++ rest) := by
  rw [Reader.skips_iff]
  intro s t hbefore ht
  cases hread : r.read (t ++ (m.text ++ rest)) with
  | none => rfl
  | some p =>
    obtain ⟨m', rest'⟩ := p
    obtain ⟨hm', hkind'⟩ := h.sound hread
    have hwritten : cs = s ++ (m'.text ++ rest') := by
      rw [hfirst.written, hbefore, List.append_assoc, r.eq_append hread]
    have hle := hfirst.leftmost s m' rest' hwritten hm' hkind'
    have hpos := List.length_pos_iff.mpr ht
    rw [hbefore, List.length_append] at hle
    omega

/-- The first marker is read where it stands. -/
theorem read_of_first (hfirst : First kind cs before m rest) :
    r.read (m.text ++ rest) = some (m, rest) := by
  obtain ⟨m', rest', hread, hle⟩ := h.shortest hfirst.complete hfirst.ofKind rest
  obtain ⟨hm', hkind'⟩ := h.sound hread
  have heq := r.eq_append hread
  have hge := hfirst.shortest m' rest' heq hm' hkind'
  obtain ⟨htext, hrest⟩ := List.append_inj heq (Nat.le_antisymm hge hle)
  rw [hread, text_inj htext, hrest]

/-- A text has one cut at the markers of the kind, and its pieces are those of the reader. -/
theorem cut_iff : Cut kind cs ps ↔ ps = pieces r cs := by
  constructor
  · intro hcut
    induction hcut with
    | whole hnone => exact (pieces_of_skips (h.skips_iff_not_infix.mpr hnone)).symm
    | first hfirst _ ih =>
      rw [hfirst.written, pieces_of_skips_read (h.skips_of_first hfirst) (h.read_of_first hfirst),
        ih]
  · rintro rfl
    induction hlength : cs.length using Nat.strongRecOn generalizing cs with
    | ind n ih =>
      rcases r.skips_or_read cs with hskips | ⟨before, m, rest, rfl, hskips, hread⟩
      · rw [pieces_of_skips hskips]
        exact .whole (h.skips_iff_not_infix.mp hskips)
      · rw [pieces_of_skips_read hskips hread]
        refine .first (h.first_of_read hskips hread) (ih rest.length ?_ rfl)
        have hpos := m.text_length_pos
        rw [← hlength, List.length_append, List.length_append]
        omega

end Reader.Takes

/-! ### The two readers -/

/-- The reader of turns takes the markers that begin turns. -/
theorem turnReader_takes : turnReader.Takes BeginsTurn where
  sound := isComplete_of_readTurn
  shortest {m} hm hturn rest := by
    cases m with
    | role name => exact ⟨_, rest, readTurn_role hm.1 hm.2, Nat.le_refl _⟩
    | history => exact ⟨_, rest, readTurn_history rest, Nat.le_refl _⟩
    | media arguments => exact hturn.elim
    | placeholder arguments => exact hturn.elim

/-- The reader of parts takes the other markers. -/
theorem partReader_takes : partReader.Takes fun m ↦ ¬ m.BeginsTurn where
  sound h := ⟨isComplete_of_readPart h, not_beginsTurn_of_readPart h⟩
  shortest {m} hm hturn rest := by
    cases m with
    | role name => exact (hturn trivial).elim
    | history => exact (hturn trivial).elim
    | media arguments =>
      obtain ⟨inner, after, hclosing, hle⟩ := exists_untilClosing hm rest
      rw [readPart_media_eq, hclosing]
      refine ⟨_, after, rfl, ?_⟩
      simpa [text, body] using hle
    | placeholder arguments =>
      obtain ⟨inner, after, hclosing, hle⟩ := exists_untilClosing hm rest
      rw [readPart_placeholder_eq, hclosing]
      refine ⟨_, after, rfl, ?_⟩
      simpa [text, body] using hle

/-- The pieces of a text at the markers that begin turns are its one cut at these. -/
theorem cut_turns_iff {cs : List Char} {ps : List Piece} :
    Cut BeginsTurn cs ps ↔ ps = pieces turnReader cs := turnReader_takes.cut_iff

/-- The pieces of a text at the other markers are its one cut at these. -/
theorem cut_parts_iff {cs : List Char} {ps : List Piece} :
    Cut (fun m ↦ ¬ m.BeginsTurn) cs ps ↔ ps = pieces partReader cs := partReader_takes.cut_iff

end PromptDoc.Marker
