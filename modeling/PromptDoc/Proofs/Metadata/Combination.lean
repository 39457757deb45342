import PromptDoc.Proofs.Metadata.Layers

/-!
# Layers combined in advance

Three layers come to the same metadata whether they are laid over one another from below or the
upper two are combined first, with one exception. An output that has nothing but an empty format
says nothing, but is there: laid over nothing it leaves an empty output, and an empty output that is
laid over nothing leaves none. Main statement: when the two ways agree, and how they differ when
they do not (`merge_merge_eq_iff`).
-/

namespace PromptDoc

/-! ### Values -/

section Values

variable {α : Type}

/-- Of three values the upmost one that counts is taken, whichever two come first. -/
theorem filter_or_or (p : α → Bool) (x y z : Option α) :
    (z.filter p).or ((y.filter p).or x) = (((z.filter p).or y).filter p).or x := by
  cases z with
  | none => rfl
  | some a => cases ha : p a <;> simp [Option.filter_some, ha]

/-- Of three values the upmost one that is not empty is taken, whichever two come first. -/
theorem ite_ite_empty (p : α → Bool) (x y z : α) :
    (if p z then if p y then x else y else z) =
      if p (if p z then y else z) then x else if p z then y else z := by
  by_cases hz : p z = true
  · rw [if_pos hz, if_pos hz]
  · rw [if_neg hz, if_neg hz, if_neg hz]

/-- Overlaying whatever is given is associative. -/
theorem overlay_overlay (x y z : Option α) :
    overlay (overlay x y) z = overlay x (overlay y z) := (Option.or_assoc ..).symm

/-- Overlaying the texts that are not empty is associative. -/
theorem overlayText_overlayText (x y z : Option String) :
    overlayText (overlayText x y) z = overlayText x (overlayText y z) := filter_or_or _ x y z

/-- Overlaying the numbers of turns that are not zero is associative. -/
theorem overlayTurns_overlayTurns (x y z : Option UInt32) :
    overlayTurns (overlayTurns x y) z = overlayTurns x (overlayTurns y z) := filter_or_or _ x y z

/-- Overlaying the lists that are not empty is associative. -/
theorem overlayList_overlayList (xs ys zs : List α) :
    overlayList (overlayList xs ys) zs = overlayList xs (overlayList ys zs) :=
  ite_ite_empty List.isEmpty xs ys zs

/-- One text over another leaves none when there is none below and at most an empty one above. -/
theorem overlayText_eq_none_iff {x y : Option String} :
    overlayText x y = none ↔ x = none ∧ (y = none ∨ y = some "") := by
  rw [overlayText, Option.or_eq_none_iff, and_comm]
  cases y <;> simp [Option.filter_some]

/-- A record says something when it is there and not the one that says nothing. -/
theorem exists_ne_iff {d : α} {x : Option α} : (∃ i ∈ x, i ≠ d) ↔ x.getD d ≠ d := by
  cases x <;> simp

end Values

/-! ### Inputs and outputs -/

namespace PromptInput

/-- One input over another says nothing when neither does. -/
theorem over_eq_empty_iff {i j : PromptInput} :
    ({ default := if j.default.isEmpty then i.default else j.default
       schema := PromptDoc.overlay i.schema j.schema } : PromptInput) = {} ↔ i = {} ∧ j = {} := by
  obtain ⟨idefault, ischema⟩ := i
  obtain ⟨jdefault, jschema⟩ := j
  simp only [mk.injEq, PromptDoc.overlay, Option.or_eq_none_iff]
  cases hj : jdefault.isEmpty with
  | true =>
    obtain rfl := OrderedMap.isEmpty_iff.mp hj
    simp only [if_true, true_and]
    constructor
    · rintro ⟨hi, hupper, hlower⟩
      exact ⟨⟨hi, hlower⟩, hupper⟩
    · rintro ⟨⟨hi, hlower⟩, hupper⟩
      exact ⟨hi, hupper, hlower⟩
  | false =>
    have hne : jdefault ≠ ∅ := by
      rintro rfl
      cases hj
    simp [hne]

/-- Of three inputs the upper two can be combined first. -/
theorem overlay_overlay (x y z : Option PromptInput) :
    overlay (overlay x y) z = overlay x (overlay y z) := by
  apply eq_of_getD_eq (d := {})
  · simp only [isSome_overlay, exists_ne_iff, getD_overlay, ne_eq, over_eq_empty_iff, not_and_or,
      or_assoc]
  · simp only [getD_overlay, mk.injEq]
    exact ⟨ite_ite_empty OrderedMap.isEmpty _ _ _, PromptDoc.overlay_overlay _ _ _⟩

end PromptInput

namespace PromptOutput

/-- One output over another says nothing when the lower does not and the upper has at most an empty
format. -/
theorem over_eq_empty_iff {o q : PromptOutput} :
    ({ format := overlayText o.format q.format
       schema := PromptDoc.overlay o.schema q.schema } : PromptOutput) = {} ↔
      o = {} ∧ (q = {} ∨ q = { format := some "" }) := by
  obtain ⟨oformat, oschema⟩ := o
  obtain ⟨qformat, qschema⟩ := q
  simp only [mk.injEq, overlayText_eq_none_iff, PromptDoc.overlay, Option.or_eq_none_iff]
  constructor
  · rintro ⟨⟨hlower, hupper⟩, hq, ho⟩
    exact ⟨⟨hlower, ho⟩, hupper.imp (⟨·, hq⟩) (⟨·, hq⟩)⟩
  · rintro ⟨⟨hlower, ho⟩, ⟨hupper, hq⟩ | ⟨hupper, hq⟩⟩
    · exact ⟨⟨hlower, .inl hupper⟩, hq, ho⟩
    · exact ⟨⟨hlower, .inr hupper⟩, hq, ho⟩

/-- The upmost of three outputs has nothing but an empty format, and nothing is said below it. -/
structure Lapses (x y z : Option PromptOutput) : Prop where
  lower : x = none
  middle : y.getD {} = {}
  upper : z = some { format := some "" }

/-- Of three outputs the upper two can be combined first, as far as they say something. -/
theorem getD_overlay_overlay (x y z : Option PromptOutput) :
    (overlay (overlay x y) z).getD {} = (overlay x (overlay y z)).getD {} := by
  simp only [getD_overlay, overlayText_overlayText, PromptDoc.overlay_overlay]

/-- Of three outputs the upper two can be combined first, unless they lapse. -/
theorem overlay_overlay_eq_iff (x y z : Option PromptOutput) :
    overlay (overlay x y) z = overlay x (overlay y z) ↔ ¬ Lapses x y z := by
  have hsame : overlay (overlay x y) z = overlay x (overlay y z) ↔
      ((overlay (overlay x y) z).isSome ↔ (overlay x (overlay y z)).isSome) :=
    ⟨fun h ↦ by rw [h], fun h ↦ eq_of_getD_eq h (getD_overlay_overlay x y z)⟩
  have hlapses : Lapses x y z ↔
      ¬ x.isSome = true ∧ y.getD {} = {} ∧ z.getD {} = { format := some "" } := by
    have hlower : x = none ↔ ¬ x.isSome = true := by simp
    have hupper : z = some { format := some "" } ↔ z.getD {} = { format := some "" } := by
      cases z <;> simp
    rw [← hlower, ← hupper]
    exact ⟨fun h ↦ ⟨h.lower, h.middle, h.upper⟩, fun h ↦ ⟨h.1, h.2.1, h.2.2⟩⟩
  have hne : ({ format := some "" } : PromptOutput) ≠ {} := by decide
  simp only [hsame, hlapses, isSome_overlay, exists_ne_iff, getD_overlay, ne_eq, over_eq_empty_iff]
  by_cases hx : x.isSome = true
  · simp [hx]
  · by_cases hy : y.getD {} = {}
    · by_cases hz : z.getD {} = { format := some "" }
      · simp [hx, hy, hz]
      · simp [hx, hy, hz]
    · simp [hx, hy]

/-- Outputs that lapse leave an empty output one way and none the other. -/
theorem Lapses.overlay_eq {x y z : Option PromptOutput} (h : Lapses x y z) :
    overlay (overlay x y) z = some {} ∧ overlay x (overlay y z) = none := by
  obtain ⟨rfl, hmiddle, rfl⟩ := h
  have hnone : overlay none y = none := by
    rw [← Option.not_isSome_iff_eq_none, isSome_overlay, exists_ne_iff]
    simp [hmiddle]
  have hempty : (overlay y (some { format := some "" })).getD {} = {} := by
    rw [getD_overlay, hmiddle]
    rfl
  rw [hnone]
  refine ⟨rfl, ?_⟩
  rw [← Option.not_isSome_iff_eq_none, isSome_overlay, exists_ne_iff, hempty]
  simp

end PromptOutput

/-! ### Metadata -/

namespace PromptMetadata

/-- Of three layers the upper two can be combined first, the output apart. -/
theorem merge_merge (a b c : PromptMetadata) :
    (a.merge b).merge c =
      { a.merge (b.merge c) with
        output := PromptOutput.overlay (PromptOutput.overlay a.output b.output) c.output } := by
  simp only [merge, mk.injEq]
  exact ⟨overlayText_overlayText .., overlayText_overlayText .., overlayText_overlayText ..,
    overlayText_overlayText .., overlayText_overlayText .., overlayTurns_overlayTurns ..,
    overlayList_overlayList .., overlayList_overlayList .., OrderedMap.extend_extend ..,
    PromptInput.overlay_overlay .., trivial, overlay_overlay ..,
    ite_ite_empty SortedMap.isEmpty _ _ _, overlay_overlay ..⟩

/-- Three layers come to the same whether they are laid over one another from below or the upper two
are combined first, unless their outputs lapse. Then the one way leaves an empty output and the
other none, and nothing else differs. -/
theorem merge_merge_eq_iff (a b c : PromptMetadata) :
    ((a.merge b).merge c = a.merge (b.merge c) ↔
        ¬ PromptOutput.Lapses a.output b.output c.output) ∧
      (PromptOutput.Lapses a.output b.output c.output →
        (a.merge (b.merge c)).output = none ∧
          (a.merge b).merge c = { a.merge (b.merge c) with output := some {} }) := by
  constructor
  · rw [← PromptOutput.overlay_overlay_eq_iff]
    constructor
    · exact fun h ↦ congrArg output h
    · intro h
      rw [merge_merge, h]
      rfl
  · intro h
    obtain ⟨hstepwise, hcombined⟩ := h.overlay_eq
    refine ⟨hcombined, ?_⟩
    rw [merge_merge, hstepwise]

/-- An output with an empty format over nothing: laid on last, it leaves an empty output. -/
theorem not_merge_merge_eq :
    ¬ ∀ a b c : PromptMetadata, (a.merge b).merge c = a.merge (b.merge c) := by
  intro h
  have houtput := congrArg output (h {} {} { output := some { format := some "" } })
  revert houtput
  decide

end PromptMetadata

end PromptDoc
