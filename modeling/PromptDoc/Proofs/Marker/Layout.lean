import Mathlib.Data.List.Forall2
import PromptDoc.Proofs.Marker.Cuts

/-!
# The layout of a rendered text

A rendered text is cut at the markers that begin turns, and each text between them is cut again at
the other markers. The layout is what both cuts leave: all markers of the text and the text between
them, in order. Main statements: the layout is the only one that is cut so (`isLayout_iff`); it
makes up the text, with markers between its texts (`flatMap_written_layout`, `separated_layout`);
its markers that begin turns are those of the first cut (`filter_beginsTurn_layout`), and what makes
parts in it is what the second cut keeps (`filter_makesPart_layout`).
-/

namespace PromptDoc.Marker

instance : DecidablePred BeginsTurn
  | role _ | history => isTrue trivial
  | media _ | placeholder _ => isFalse id

namespace Piece

/-- The marker of a piece. -/
def marker? : Piece → Option Marker
  | marker m => some m
  | text _ => none

/-- Whether a piece makes a part of a message: a text that is not blank, or a marker that begins no
turn. -/
def makesPart : Piece → Bool
  | marker m => !decide m.BeginsTurn
  | text cs => !Text.allBlank cs

/-- What the second cut leaves of a piece of the first. -/
def inner : Piece → List Piece
  | marker m => [.marker m]
  | text cs => pieces partReader cs

end Piece

/-- The markers among some pieces. -/
def markersOf (ps : List Piece) : List Marker := ps.filterMap Piece.marker?

/-- All markers of a rendered text and the text between them. Markers that begin turns are found
first, and the others in the text between those. -/
def layout (cs : List Char) : List Piece := (pieces turnReader cs).flatMap Piece.inner

/-! ### The one layout -/

/-- A piece of the first cut is cut again if it is a text. -/
inductive CutAgain : Piece → List Piece → Prop
  | marker (m : Marker) : CutAgain (.marker m) [.marker m]
  | text {cs : List Char} {ps : List Piece} (h : Cut (fun m ↦ ¬ m.BeginsTurn) cs ps) :
    CutAgain (.text cs) ps

/-- What a text is cut into: first at the markers that begin turns, then between them at the
others. -/
def IsLayout (cs : List Char) (ps : List Piece) : Prop :=
  ∃ outer inner, Cut BeginsTurn cs outer ∧ List.Forall₂ CutAgain outer inner ∧ ps = inner.flatten

/-- The second cut of a piece. -/
theorem cutAgain_iff {p : Piece} {ps : List Piece} : CutAgain p ps ↔ ps = p.inner := by
  constructor
  · intro h
    cases h with
    | marker m => rfl
    | text hcut => exact cut_parts_iff.mp hcut
  · rintro rfl
    cases p with
    | marker m => exact .marker m
    | text cs => exact .text (cut_parts_iff.mpr rfl)

/-- A text has one layout. -/
theorem isLayout_iff {cs : List Char} {ps : List Piece} : IsLayout cs ps ↔ ps = layout cs := by
  have hinner : ∀ outer inner, List.Forall₂ CutAgain outer inner ↔
      outer.map Piece.inner = inner := by
    intro outer inner
    have hagain : CutAgain = fun p ps ↦ p.inner = ps := by
      funext p ps
      exact propext (cutAgain_iff.trans eq_comm)
    rw [hagain, ← List.forall₂_map_left_iff, List.forall₂_eq_eq_eq]
  simp only [IsLayout, cut_turns_iff, hinner]
  constructor
  · rintro ⟨_, _, rfl, rfl, rfl⟩
    rfl
  · rintro rfl
    exact ⟨_, _, rfl, rfl, rfl⟩

/-! ### The layout makes up the text -/

/-- A piece that is cut again is written as before. -/
theorem flatMap_written_inner (p : Piece) : p.inner.flatMap Piece.written = p.written := by
  cases p with
  | marker m => exact List.flatMap_singleton Piece.written _
  | text cs => exact flatMap_written_pieces partReader cs

/-- The layout of a text makes up the text. -/
theorem flatMap_written_layout (cs : List Char) : (layout cs).flatMap Piece.written = cs := by
  rw [layout, List.flatMap_assoc]
  simp only [flatMap_written_inner]
  exact flatMap_written_pieces turnReader cs

/-- No two texts stand in a row where a marker stands at the border. -/
theorem Separated.append {ps qs : List Piece} (hps : Separated ps) (hqs : Separated qs)
    (hfirst : MarkerFirst qs) : Separated (ps ++ qs) := by
  induction ps with
  | nil => exact hqs
  | cons p ps ih =>
    cases p with
    | marker m => exact ih hps
    | text cs =>
      refine ⟨?_, ih hps.2⟩
      cases ps with
      | nil => exact hfirst
      | cons q ps =>
        cases q with
        | marker m => trivial
        | text ds => exact hps.1.elim

/-- No two texts stand in a row in a layout. -/
theorem separated_layout (cs : List Char) : Separated (layout cs) := by
  have h := separated_pieces turnReader cs
  rw [layout]
  generalize pieces turnReader cs = ps at h
  induction ps with
  | nil => trivial
  | cons p ps ih =>
    rw [List.flatMap_cons]
    cases p with
    | marker m => exact ih h
    | text ds =>
      refine (separated_pieces partReader ds).append (ih h.2) ?_
      cases ps with
      | nil => trivial
      | cons q ps =>
        cases q with
        | marker m => trivial
        | text es => exact h.1.elim

/-! ### What the cuts find -/

/-- The markers of the first cut begin turns. -/
theorem beginsTurn_of_mem_pieces {m : Marker} {cs : List Char}
    (h : .marker m ∈ pieces turnReader cs) : m.BeginsTurn := by
  obtain ⟨front, rest, hread⟩ := exists_read_of_mem_pieces h
  exact (isComplete_of_readTurn hread).2

/-- The markers of the second cut begin no turns. -/
theorem not_beginsTurn_of_mem_pieces {m : Marker} {cs : List Char}
    (h : .marker m ∈ pieces partReader cs) : ¬ m.BeginsTurn := by
  obtain ⟨front, rest, hread⟩ := exists_read_of_mem_pieces h
  exact not_beginsTurn_of_readPart hread

/-- The second cut finds no markers that begin turns. -/
theorem filter_beginsTurn_pieces (cs : List Char) :
    (markersOf (pieces partReader cs)).filter (fun m ↦ m.BeginsTurn) = [] := by
  rw [List.filter_eq_nil_iff]
  intro m hm
  obtain ⟨p, hp, hmarker⟩ := List.mem_filterMap.mp hm
  cases p with
  | text ds => cases hmarker
  | marker mark =>
    cases hmarker
    simpa using not_beginsTurn_of_mem_pieces hp

/-- The markers of a layout that begin turns are those of the first cut. -/
theorem filter_beginsTurn_layout (cs : List Char) :
    (markersOf (layout cs)).filter (fun m ↦ m.BeginsTurn) = markersOf (pieces turnReader cs) := by
  have h : ∀ m, .marker m ∈ pieces turnReader cs → m.BeginsTurn :=
    fun _ hm ↦ beginsTurn_of_mem_pieces hm
  rw [layout, markersOf, List.filterMap_flatMap, List.filter_flatMap]
  generalize pieces turnReader cs = ps at h
  induction ps with
  | nil => rfl
  | cons p ps ih =>
    rw [List.flatMap_cons, ih fun m hm ↦ h m (List.mem_cons_of_mem p hm)]
    cases p with
    | text ds => exact congrArg (· ++ markersOf ps) (filter_beginsTurn_pieces ds)
    | marker m =>
      have hm := h m List.mem_cons_self
      show [m].filter (fun m ↦ m.BeginsTurn) ++ markersOf ps = m :: markersOf ps
      rw [List.filter_cons_of_pos (by simpa using hm)]
      rfl

/-- Leaving out blank texts leaves all markers. -/
theorem markersOf_split (r : Reader) (cs : List Char) :
    markersOf (split r cs) = markersOf (pieces r cs) := by
  rw [split, markersOf, markersOf, List.filterMap_filter]
  congr 1
  funext p
  cases p <;> simp [Piece.isBlank, Piece.marker?]

/-- What makes parts in a text of the first cut is what the second cut keeps. -/
theorem filter_makesPart_pieces (cs : List Char) :
    (pieces partReader cs).filter Piece.makesPart = splitParts cs := by
  rw [splitParts, split]
  apply List.filter_congr
  intro p hp
  cases p with
  | text ds => rfl
  | marker m => simpa [Piece.makesPart, Piece.isBlank] using not_beginsTurn_of_mem_pieces hp

/-- Of a blank text the second cut keeps nothing: every marker begins with a character that is not
blank. -/
theorem splitParts_of_allBlank {cs : List Char} (h : Text.allBlank cs = true) :
    splitParts cs = [] := by
  rw [splitParts, split, List.filter_eq_nil_iff]
  intro p hp
  have hwritten : ∀ c ∈ p.written, Text.isBlank c = true := by
    intro c hc
    exact List.all_eq_true.mp h c ((written_infix_of_mem_pieces hp).subset hc)
  cases p with
  | text ds =>
    have hblank : Text.allBlank ds = true := List.all_eq_true.mpr hwritten
    simp [Piece.isBlank, hblank]
  | marker m =>
    have hlt : '<' ∈ m.text := (opening_prefix_text m).subset (by decide)
    exact absurd (hwritten '<' hlt) (by decide)

/-- What makes parts in a layout is what the second cut keeps of the texts that the first keeps. -/
theorem filter_makesPart_layout (cs : List Char) :
    (layout cs).filter Piece.makesPart =
      (splitTurns cs).flatMap fun
        | .marker _ => []
        | .text ds => splitParts ds := by
  have h : ∀ m, .marker m ∈ pieces turnReader cs → m.BeginsTurn :=
    fun _ hm ↦ beginsTurn_of_mem_pieces hm
  rw [layout, splitTurns, split, List.filter_flatMap]
  generalize pieces turnReader cs = ps at h
  induction ps with
  | nil => rfl
  | cons p ps ih =>
    rw [List.flatMap_cons, ih fun m hm ↦ h m (List.mem_cons_of_mem p hm)]
    cases p with
    | marker m =>
      have hm := h m List.mem_cons_self
      have hnone : [Piece.marker m].filter Piece.makesPart = [] := by
        simpa [Piece.makesPart] using hm
      exact congrArg (· ++ _) hnone
    | text ds =>
      rw [Piece.inner, filter_makesPart_pieces]
      cases hds : Text.allBlank ds with
      | true =>
        rw [splitParts_of_allBlank hds, List.filter_cons_of_neg (by simp [Piece.isBlank, hds]),
          List.nil_append]
      | false => rw [List.filter_cons_of_pos (by simp [Piece.isBlank, hds]), List.flatMap_cons]

end PromptDoc.Marker
