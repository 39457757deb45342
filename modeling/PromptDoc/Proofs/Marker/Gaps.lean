import PromptDoc.Proofs.Marker.Reading

/-!
# Between the markers of a text

Markers are taken leftmost first, so none is left in the text between them: a marker that stood
there would have been taken. Main statements: the text between markers holds no marker of the kind
that is read (`Reader.Reads.not_infix_text`), so what is cut out of a turn of a rendered text holds
no complete marker at all (`not_infix_of_mem_splits`); and no two pieces of text stand in a row
(`separated_split`).
-/

namespace PromptDoc.Marker

/-- Whether a marker is one that rendered texts are read for: a role is named by one or more
lower-case letters, and the arguments of a media or section marker stay on their line. -/
def IsComplete : Marker → Prop
  | role name => name ≠ [] ∧ ∀ c ∈ name, isLower c = true
  | history => True
  | media arguments => '\n' ∉ arguments
  | placeholder arguments => '\n' ∉ arguments

/-- Whether a marker begins a turn. -/
def BeginsTurn : Marker → Prop
  | role _ | history => True
  | media _ | placeholder _ => False

/-! ### What is left between markers -/

/-- Where the marker stands, `r` reads a marker. -/
def Reader.Reads (r : Reader) (m : Marker) : Prop :=
  ∀ rest, r.read (m.text ++ rest) ≠ none

/-- A text that comes first among the pieces stands first. -/
theorem prefix_of_pieces_eq {r : Reader} {cs t : List Char} {ps : List Piece}
    (h : pieces r cs = .text t :: ps) : t <+: cs := by
  have hwritten := flatMap_written_pieces r cs
  rw [h, List.flatMap_cons] at hwritten
  exact ⟨ps.flatMap Piece.written, hwritten⟩

/-- A piece stands in the text as it is written. -/
theorem written_infix_of_mem_pieces {r : Reader} {cs : List Char} {p : Piece}
    (h : p ∈ pieces r cs) : p.written <:+: cs := by
  obtain ⟨before, after, hpieces⟩ := List.append_of_mem h
  rw [← flatMap_written_pieces r cs, hpieces, List.flatMap_append, List.flatMap_cons,
    ← List.append_assoc]
  exact List.infix_append _ _ _

/-- The pieces with a character in front of them: it makes the first text longer, or is a text by
itself. -/
theorem consText_cases (c : Char) (ps : List Piece) :
    (∃ t qs, ps = .text t :: qs ∧ consText c ps = .text (c :: t) :: qs) ∨
      (MarkerFirst ps ∧ consText c ps = .text [c] :: ps) := by
  cases ps with
  | nil => exact .inr ⟨trivial, rfl⟩
  | cons p qs =>
    cases p with
    | text t => exact .inl ⟨t, qs, rfl, rfl⟩
    | marker m => exact .inr ⟨trivial, rfl⟩

/-- No marker that `r` reads stands in the text between markers. A marker in a text that begins with
`c` stands behind it, or at the place where none was read. -/
theorem Reader.Reads.not_infix_text {r : Reader} {m : Marker} (hm : r.Reads m)
    {source cs : List Char} (h : .text cs ∈ pieces r source) : ¬ m.text <:+: cs := by
  -- The marker would begin at `c` if it stood first in a text that begins there.
  have hfront : ∀ {c : Char} {t rest : List Char}, r.read (c :: rest) = none → t <+: rest →
      ¬ m.text <+: c :: t := by
    intro c t rest hread ht hpre
    obtain ⟨after, hafter⟩ := hpre.trans (List.cons_prefix_cons.mpr ⟨rfl, ht⟩)
    rw [← hafter] at hread
    exact hm after hread
  induction source using pieces.induct r generalizing cs with
  | case1 => simp [pieces] at h
  | case2 c source mark rest hread _ ih =>
    rw [pieces_of_read hread] at h
    rcases List.mem_cons.mp h with heq | hmem
    · cases heq
    · exact ih hmem
  | case3 c source hread ih =>
    rw [pieces_of_not_read hread] at h
    rcases consText_cases c (pieces r source) with ⟨t, qs, hps, heq⟩ | ⟨-, heq⟩
    · rw [heq] at h
      rcases List.mem_cons.mp h with heq' | hmem
      · cases heq'
        rw [List.infix_cons_iff, not_or]
        refine ⟨hfront hread (prefix_of_pieces_eq hps), ih ?_⟩
        rw [hps]
        exact List.mem_cons_self
      · apply ih
        rw [hps]
        exact List.mem_cons_of_mem _ hmem
    · rw [heq] at h
      rcases List.mem_cons.mp h with heq' | hmem
      · cases heq'
        rw [List.infix_cons_iff, not_or]
        refine ⟨hfront hread List.nil_prefix, ?_⟩
        rw [List.infix_nil]
        exact List.ne_nil_of_length_pos m.text_length_pos
      · exact ih hmem

/-! ### Texts do not stand in a row -/

/-- No two texts stand in a row among the pieces. -/
def Separated : List Piece → Prop
  | [] => True
  | .marker _ :: ps => Separated ps
  | .text _ :: ps => MarkerFirst ps ∧ Separated ps

/-- A character in front makes no text of its own in front of a text. -/
theorem separated_consText {ps : List Piece} (h : Separated ps) (c : Char) :
    Separated (consText c ps) := by
  rcases consText_cases c ps with ⟨t, qs, rfl, heq⟩ | ⟨hfirst, heq⟩
  · rw [heq]
    exact h
  · rw [heq]
    exact ⟨hfirst, h⟩

/-- No two texts stand in a row among the pieces of a text. -/
theorem separated_pieces (r : Reader) (cs : List Char) : Separated (pieces r cs) := by
  induction cs using pieces.induct r with
  | case1 =>
    rw [pieces]
    trivial
  | case2 c cs m rest hread _ ih =>
    rw [pieces_of_read hread]
    exact ih
  | case3 c cs hread ih =>
    rw [pieces_of_not_read hread]
    exact separated_consText ih c

/-- Leaving out blank texts keeps a marker first. -/
theorem MarkerFirst.filter_not_isBlank {ps : List Piece} (h : MarkerFirst ps) :
    MarkerFirst (ps.filter fun p ↦ !p.isBlank) := by
  cases ps with
  | nil => trivial
  | cons p ps =>
    cases p with
    | text t => exact False.elim h
    | marker m => trivial

/-- No two texts stand in a row among the pieces that are kept: what is left out stands between
markers. -/
theorem separated_split (r : Reader) (cs : List Char) : Separated (split r cs) := by
  have h := separated_pieces r cs
  rw [split]
  generalize pieces r cs = ps at h
  induction ps with
  | nil => trivial
  | cons p ps ih =>
    cases p with
    | marker m => exact ih h
    | text t =>
      cases hblank : Text.allBlank t with
      | true =>
        rw [List.filter_cons_of_neg (by simp [Piece.isBlank, hblank])]
        exact ih h.2
      | false =>
        rw [List.filter_cons_of_pos (by simp [Piece.isBlank, hblank])]
        exact ⟨h.1.filter_not_isBlank, ih h.2⟩

/-- A text that is kept is not blank, and is one of all pieces. -/
theorem text_mem_split {r : Reader} {cs t : List Char} (h : .text t ∈ split r cs) :
    Text.allBlank t = false ∧ .text t ∈ pieces r cs := by
  obtain ⟨hmem, hblank⟩ := List.mem_filter.mp h
  exact ⟨by simpa [Piece.isBlank] using hblank, hmem⟩

/-! ### Which markers are read -/

/-- A character in front changes no marker. -/
theorem marker_mem_consText {c : Char} {m : Marker} {ps : List Piece} :
    .marker m ∈ consText c ps ↔ .marker m ∈ ps := by
  rcases consText_cases c ps with ⟨t, qs, rfl, heq⟩ | ⟨-, heq⟩
  · simp [heq]
  · simp [heq]

/-- A marker among the pieces was read. -/
theorem exists_read_of_mem_pieces {r : Reader} {m : Marker} {cs : List Char}
    (h : .marker m ∈ pieces r cs) : ∃ front rest, r.read front = some (m, rest) := by
  induction cs using pieces.induct r with
  | case1 => simp [pieces] at h
  | case2 c cs mark rest hread _ ih =>
    rw [pieces_of_read hread] at h
    rcases List.mem_cons.mp h with heq | hmem
    · cases heq
      exact ⟨_, _, hread⟩
    · exact ih hmem
  | case3 c cs hread ih =>
    rw [pieces_of_not_read hread, marker_mem_consText] at h
    exact ih h

/-- A marker among the kept pieces was read. -/
theorem exists_read_of_mem_split {r : Reader} {m : Marker} {cs : List Char}
    (h : .marker m ∈ split r cs) : ∃ front rest, r.read front = some (m, rest) :=
  exists_read_of_mem_pieces (List.mem_filter.mp h).1

/-- A marker that begins a turn is complete where it is read. -/
theorem isComplete_of_readTurn {cs rest : List Char} {m : Marker}
    (h : turnReader.read cs = some (m, rest)) : m.IsComplete ∧ m.BeginsTurn := by
  rw [read_turnReader, readTurn] at h
  split at h
  · next after hafter =>
    dsimp only at h
    split at h
    · cases h
    · next hne =>
      obtain ⟨r, -, heq⟩ := Option.map_eq_some_iff.mp h
      cases heq
      refine ⟨⟨by simpa using hne, fun c hc ↦ ?_⟩, trivial⟩
      exact List.all_eq_true.mp List.all_takeWhile c hc
  · obtain ⟨r, -, heq⟩ := Option.map_eq_some_iff.mp h
    cases heq
    exact ⟨trivial, trivial⟩

/-- A text that holds no complete marker of a turn is skipped. -/
theorem skips_of_not_infix {cs : List Char}
    (h : ∀ m : Marker, m.IsComplete → m.BeginsTurn → ¬ m.text <:+: cs) :
    turnReader.Skips cs [] := by
  induction cs with
  | nil => trivial
  | cons c cs ih =>
    refine ⟨?_, ih fun m hm hturn hin ↦ h m hm hturn (List.infix_cons hin)⟩
    rw [List.append_nil]
    cases hread : turnReader.read (c :: cs) with
    | none => rfl
    | some p =>
      obtain ⟨m, rest⟩ := p
      obtain ⟨hm, hturn⟩ := isComplete_of_readTurn hread
      refine absurd ?_ (h m hm hturn)
      rw [turnReader.eq_append hread]
      exact (List.prefix_append _ _).isInfix

/-- A marker that begins a turn holds no space. -/
theorem space_notMem_body {m : Marker} (hm : m.IsComplete) (hturn : m.BeginsTurn) :
    ' ' ∉ m.body := by
  cases m with
  | role name =>
    intro hmem
    rcases List.mem_append.mp hmem with hlead | hname
    · exact absurd hlead (by decide)
    · exact absurd (hm.2 ' ' hname) (by decide)
  | history => decide
  | media arguments => exact hturn.elim
  | placeholder arguments => exact hturn.elim

/-- The markers at which a text is cut into turns begin turns. -/
theorem beginsTurn_of_mem_splitTurns {m : Marker} {cs : List Char}
    (h : .marker m ∈ splitTurns cs) : m.BeginsTurn := by
  obtain ⟨front, rest, hread⟩ := exists_read_of_mem_split h
  exact (isComplete_of_readTurn hread).2

/-- A media or section marker begins no turn. -/
theorem not_beginsTurn_of_readPart {cs rest : List Char} {m : Marker}
    (h : partReader.read cs = some (m, rest)) : ¬ m.BeginsTurn := by
  rw [read_partReader, readPart] at h
  split at h
  · obtain ⟨p, -, heq⟩ := Option.map_eq_some_iff.mp h
    cases heq
    exact id
  · split at h
    · obtain ⟨p, -, heq⟩ := Option.map_eq_some_iff.mp h
      cases heq
      exact id
    · cases h

/-- The markers at which the text of a turn is cut into parts begin no turns. -/
theorem not_beginsTurn_of_mem_splitParts {m : Marker} {cs : List Char}
    (h : .marker m ∈ splitParts cs) : ¬ m.BeginsTurn := by
  obtain ⟨front, rest, hread⟩ := exists_read_of_mem_split h
  exact not_beginsTurn_of_readPart hread

/-- A closing is found behind a text on one line, at its end or before. -/
theorem exists_untilClosing {cs : List Char} (hlf : '\n' ∉ cs) (rest : List Char) :
    ∃ inner after, untilClosing (cs ++ (closing ++ rest)) = some (inner, after) ∧
      inner.length ≤ cs.length := by
  induction cs with
  | nil => exact ⟨[], rest, rfl, Nat.le_refl _⟩
  | cons c cs ih =>
    rw [List.mem_cons, not_or] at hlf
    rw [List.cons_append, untilClosing]
    split
    · next after _ => exact ⟨[], after, rfl, Nat.zero_le _⟩
    · obtain ⟨inner, after, hinner, hle⟩ := ih hlf.2
      rw [if_neg (Ne.symm hlf.1), hinner]
      exact ⟨c :: inner, after, rfl, Nat.succ_le_succ hle⟩

/-- What stands in front of a closing is on one line. -/
theorem newline_notMem_of_untilClosing {cs inner rest : List Char}
    (h : untilClosing cs = some (inner, rest)) : '\n' ∉ inner := by
  induction cs generalizing inner with
  | nil => cases h
  | cons c cs ih =>
    rw [untilClosing] at h
    split at h
    · cases h
      exact List.not_mem_nil
    · split at h
      · cases h
      · next hbreak =>
        obtain ⟨p, hp, heq⟩ := Option.map_eq_some_iff.mp h
        cases heq
        rw [List.mem_cons, not_or]
        exact ⟨Ne.symm hbreak, ih hp⟩

/-- A media or section marker is complete where it is read. -/
theorem isComplete_of_readPart {cs rest : List Char} {m : Marker}
    (h : partReader.read cs = some (m, rest)) : m.IsComplete := by
  rw [read_partReader, readPart] at h
  split at h
  · obtain ⟨p, hp, heq⟩ := Option.map_eq_some_iff.mp h
    cases heq
    exact newline_notMem_of_untilClosing hp
  · split at h
    · obtain ⟨p, hp, heq⟩ := Option.map_eq_some_iff.mp h
      cases heq
      exact newline_notMem_of_untilClosing hp
    · cases h

/-- A complete marker that begins a turn is read. -/
theorem turnReader_reads {m : Marker} (h : m.IsComplete) (hm : m.BeginsTurn) :
    turnReader.Reads m := by
  intro rest
  cases m with
  | role name =>
    rw [readTurn_role h.1 h.2]
    exact Option.some_ne_none _
  | history =>
    rw [readTurn_history]
    exact Option.some_ne_none _
  | media arguments => exact hm.elim
  | placeholder arguments => exact hm.elim

/-- A complete marker that begins no turn is read. -/
theorem partReader_reads {m : Marker} (h : m.IsComplete) (hm : ¬ m.BeginsTurn) :
    partReader.Reads m := by
  intro rest
  cases m with
  | role name => exact (hm trivial).elim
  | history => exact (hm trivial).elim
  | media arguments =>
    obtain ⟨inner, after, hclosing, -⟩ := exists_untilClosing h rest
    rw [readPart_media_eq, hclosing]
    exact Option.some_ne_none _
  | placeholder arguments =>
    obtain ⟨inner, after, hclosing, -⟩ := exists_untilClosing h rest
    rw [readPart_placeholder_eq, hclosing]
    exact Option.some_ne_none _

/-- A text cut out of a turn, cut out of a rendered text, holds no complete marker: none that begins
a turn is in the turn, and no other is in the text. -/
theorem not_infix_of_mem_splits {rendered source cs : List Char}
    (hsource : .text source ∈ splitTurns rendered) (hcs : .text cs ∈ splitParts source) {m : Marker}
    (hm : m.IsComplete) : ¬ m.text <:+: cs := by
  have hinner := (text_mem_split hcs).2
  by_cases hturn : m.BeginsTurn
  · have hwritten : cs <:+: source := written_infix_of_mem_pieces hinner
    intro hin
    exact (turnReader_reads hm hturn).not_infix_text (text_mem_split hsource).2 (hin.trans hwritten)
  · exact (partReader_reads hm hturn).not_infix_text hinner

end PromptDoc.Marker
