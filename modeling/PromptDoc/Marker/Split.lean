import PromptDoc.Marker.Basic
import PromptDoc.Text.Blank

/-!
# Splitting texts at markers

A rendered text is split twice: at role and history markers into the sources of its turns, and each
source at media and section markers into its parts. Markers are taken leftmost first and do not
overlap, and white space that stands alone between markers is dropped. Main statement: a text is the
concatenation of its pieces before that drop (`flatMap_written_pieces`).
-/

namespace PromptDoc.Marker

/-- A reader takes a marker off the front of a text and gives the rest. -/
structure Reader where
  /-- The marker at the front and what follows it, if there is one. -/
  read : List Char → Option (Marker × List Char)
  /-- What was taken is what the marker looks like. -/
  eq_append : ∀ {cs m rest}, read cs = some (m, rest) → cs = m.text ++ rest

/-- A marker is not empty. -/
theorem text_length_pos (m : Marker) : 0 < m.text.length := by
  simp only [text, closing, List.length_append, List.length_cons]
  omega

/-- Reading a marker shortens the text. -/
theorem Reader.length_lt (r : Reader) {cs rest : List Char} {m : Marker}
    (h : r.read cs = some (m, rest)) : rest.length < cs.length := by
  rw [r.eq_append h, List.length_append]
  have := m.text_length_pos
  omega

/-- Whether a character is a lower-case letter of ASCII. -/
def isLower (c : Char) : Bool := 'a' ≤ c && c ≤ 'z'

/-- Read a role marker, whose name is one or more lower-case letters, or a history marker. -/
def readTurn (cs : List Char) : Option (Marker × List Char) :=
  match Text.after? roleLead cs with
  | some rest =>
    let name := rest.takeWhile isLower
    if name.isEmpty then none
    else (Text.after? closing (rest.dropWhile isLower)).map fun r ↦ (.role name, r)
  | none => (Text.after? (historyLead ++ closing) cs).map fun r ↦ (.history, r)

/-- The text up to the first closing on the line, and what follows the closing. -/
def untilClosing : List Char → Option (List Char × List Char)
  | [] => none
  | c :: cs =>
    match Text.after? closing (c :: cs) with
    | some rest => some ([], rest)
    | none => if c = '\n' then none else (untilClosing cs).map fun p ↦ (c :: p.1, p.2)

/-- Read a media or a section marker. -/
def readPart (cs : List Char) : Option (Marker × List Char) :=
  match Text.after? mediaLead cs with
  | some rest => (untilClosing rest).map fun p ↦ (.media p.1, p.2)
  | none =>
    match Text.after? placeholderLead cs with
    | some rest => (untilClosing rest).map fun p ↦ (.placeholder p.1, p.2)
    | none => none

/-- The text up to the closing, the closing and the rest make up the text. -/
theorem eq_append_of_untilClosing {cs inner rest : List Char}
    (h : untilClosing cs = some (inner, rest)) : cs = inner ++ closing ++ rest := by
  induction cs generalizing inner rest with
  | nil => simp [untilClosing] at h
  | cons c cs ih =>
    rw [untilClosing] at h
    split at h
    next r hr =>
      simp only [Option.some.injEq, Prod.mk.injEq] at h
      rw [← h.1, ← h.2]
      simpa using Text.after?_eq_some_iff.mp hr
    next =>
      split at h
      · simp at h
      · obtain ⟨⟨i, r⟩, hi, heq⟩ := Option.map_eq_some_iff.mp h
        simp only [Prod.mk.injEq] at heq
        rw [← heq.1, ← heq.2, ih hi]
        rfl

/-- Reads role and history markers. -/
def turnReader : Reader where
  read := readTurn
  eq_append := by
    intro cs m rest h
    unfold readTurn at h
    split at h
    next r hr =>
      simp only at h
      split at h
      · simp at h
      · obtain ⟨s, hs, heq⟩ := Option.map_eq_some_iff.mp h
        simp only [Prod.mk.injEq] at heq
        rw [← heq.1, ← heq.2, Text.after?_eq_some_iff.mp hr]
        have := Text.after?_eq_some_iff.mp hs
        simp only [text, body, List.append_assoc]
        rw [← this, List.takeWhile_append_dropWhile]
    next =>
      obtain ⟨s, hs, heq⟩ := Option.map_eq_some_iff.mp h
      simp only [Prod.mk.injEq] at heq
      rw [← heq.1, ← heq.2]
      exact Text.after?_eq_some_iff.mp hs

/-- Reads media and section markers. -/
def partReader : Reader where
  read := readPart
  eq_append := by
    intro cs m rest h
    unfold readPart at h
    split at h
    next r hr =>
      obtain ⟨⟨i, s⟩, hs, heq⟩ := Option.map_eq_some_iff.mp h
      simp only [Prod.mk.injEq] at heq
      rw [← heq.1, ← heq.2, Text.after?_eq_some_iff.mp hr, eq_append_of_untilClosing hs]
      simp [text, body, List.append_assoc]
    next =>
      split at h
      next r hr =>
        obtain ⟨⟨i, s⟩, hs, heq⟩ := Option.map_eq_some_iff.mp h
        simp only [Prod.mk.injEq] at heq
        rw [← heq.1, ← heq.2, Text.after?_eq_some_iff.mp hr, eq_append_of_untilClosing hs]
        simp [text, body, List.append_assoc]
      next => simp at h

/-- A piece of a split text. -/
inductive Piece where
  | marker (m : Marker)
  | text (cs : List Char)
  deriving DecidableEq

namespace Piece

/-- The piece as it stood in the text. -/
def written : Piece → List Char
  | marker m => m.text
  | text cs => cs

/-- Whether the piece is text of white space alone. -/
def isBlank : Piece → Bool
  | marker _ => false
  | text cs => Text.allBlank cs

end Piece

/-- Put a character in front of a split text. -/
def consText (c : Char) : List Piece → List Piece
  | .text cs :: ps => .text (c :: cs) :: ps
  | ps => .text [c] :: ps

/-- All pieces of a text: its leftmost markers that do not overlap, and the text between them. -/
def pieces (r : Reader) : List Char → List Piece
  | [] => []
  | c :: cs =>
    match h : r.read (c :: cs) with
    | some (m, rest) =>
      have := r.length_lt h
      .marker m :: pieces r rest
    | none => consText c (pieces r cs)
termination_by cs => cs.length
decreasing_by
  · exact this
  · exact Nat.lt_succ_self _

/-- The pieces of a text without those of white space alone. -/
def split (r : Reader) (cs : List Char) : List Piece :=
  (pieces r cs).filter fun p ↦ !p.isBlank

/-- The pieces of a text at its role and history markers. Specification §4.4. -/
def splitTurns (cs : List Char) : List Piece := split turnReader cs

/-- The pieces of a text at its media and section markers. Specification §4.4. -/
def splitParts (cs : List Char) : List Piece := split partReader cs

private theorem flatMap_written_consText (c : Char) (ps : List Piece) :
    (consText c ps).flatMap Piece.written = c :: ps.flatMap Piece.written := by
  unfold consText
  split <;> simp [Piece.written]

/-- The pieces of a text make up the text. -/
theorem flatMap_written_pieces (r : Reader) (cs : List Char) :
    (pieces r cs).flatMap Piece.written = cs := by
  fun_induction pieces r cs with
  | case1 => rfl
  | case2 c cs m rest h _ ih =>
    rw [List.flatMap_cons, ih, Piece.written, ← r.eq_append h]
  | case3 c cs h ih => rw [flatMap_written_consText, ih]

end PromptDoc.Marker
