import PromptDoc.FrontMatter.Parse

/-!
# Front matter between its fences

A text that begins and ends with a character that is not white space, and of which no line is a
fence, is found again between two fences: the opening fence cannot end later, the closing one cannot
begin earlier, and what is behind them does not matter. Main statements: the document splits at its
two fences (`split_fenced`), so exactly the text between them is decoded (`parse_fenced`).
-/

namespace PromptDoc.FrontMatter

/-- How a line ends. -/
inductive LineEnd where
  | lf
  | cr
  | crlf

/-- The characters at the end of a line. -/
def LineEnd.chars : LineEnd → List Char
  | lf => ['\n']
  | cr => ['\r']
  | crlf => ['\r', '\n']

/-- `LineEnd.chars` as a string. -/
def LineEnd.text (nl : LineEnd) : String := String.ofList nl.chars

/-- The document with a text between two fences and another behind them. -/
def fenced (nl₁ nl₂ nl₃ : LineEnd) (inner body : String) : String :=
  "---" ++ nl₁.text ++ inner ++ nl₂.text ++ "---" ++ nl₃.text ++ body

/-- The lines of a text. -/
def lines (cs : List Char) : List (List Char) := cs.splitOnP Text.isBreak

/-- Whether a line is a fence: there is nothing but white space behind its dashes. -/
def isFence (line : List Char) : Bool := (Text.after? dashes line).any Text.allBlank

/-- A text that can stand between fences. -/
structure Enclosable (inner : List Char) : Prop where
  starts : ∃ c ∈ inner.head?, Text.isBlank c = false
  ends : ∃ c ∈ inner.getLast?, Text.isBlank c = false
  no_fence : ∀ line ∈ lines inner, isFence line = false

/-- A line end is made of line breaks. -/
theorem LineEnd.isBreak_of_mem {nl : LineEnd} {c : Char} (h : c ∈ nl.chars) :
    Text.isBreak c = true := by
  have hbreak : nl.chars.all Text.isBreak = true := by
    cases nl <;> rfl
  exact List.all_eq_true.mp hbreak c h

/-- A line end is not empty. -/
theorem LineEnd.chars_ne_nil (nl : LineEnd) : nl.chars ≠ [] := by
  cases nl <;> decide

/-- A line break is no dash. -/
theorem notMem_dashes {c : Char} (hc : Text.isBreak c = true) : c ∉ dashes := by
  intro h
  have hdashes : dashes.any Text.isBreak = false := rfl
  exact List.any_eq_false.mp hdashes c h hc

/-- Dashes with white space behind them are a fence. -/
theorem isFence_dashes (cs : List Char) : isFence (dashes ++ cs) = Text.allBlank cs := by
  rw [isFence, Text.after?_eq_some_iff.mpr rfl, Option.any_some]

/-! ### Lines -/

/-- The text up to its first line break. -/
def firstLine (cs : List Char) : List Char := cs.takeWhile fun c ↦ !Text.isBreak c

/-- The lines of a text start with its first line. -/
theorem head?_lines (cs : List Char) : (lines cs).head? = some (firstLine cs) := by
  induction cs with
  | nil => rfl
  | cons c cs ih =>
    rw [lines, List.splitOnP_cons_eq_if_modifyHead]
    cases hc : Text.isBreak c with
    | true => simp [firstLine, hc]
    | false =>
      rw [lines] at ih
      simp [firstLine, hc, ih]

/-- What stands behind a line break is not part of the first line. -/
theorem firstLine_append_break (cs : List Char) {c : Char} (hc : Text.isBreak c = true)
    (rest : List Char) : firstLine (cs ++ c :: rest) = firstLine cs := by
  induction cs with
  | nil => simp [firstLine, hc]
  | cons d cs ih =>
    cases hd : Text.isBreak d with
    | true => simp [firstLine, hd]
    | false => simpa [firstLine, hd] using ih

/-- Behind a line end there is a line. -/
theorem firstLine_mem_lines (before : List Char) (nl : LineEnd) (cs : List Char) :
    firstLine cs ∈ lines (before ++ (nl.chars ++ cs)) := by
  have hfirst := List.mem_of_head? (head?_lines cs)
  rcases List.eq_nil_or_concat nl.chars with hnil | ⟨front, c, hchars⟩
  · exact absurd hnil nl.chars_ne_nil
  · have hc : Text.isBreak c = true := by
      apply nl.isBreak_of_mem
      simp [hchars]
    have heq : before ++ (nl.chars ++ cs) = (before ++ front) ++ c :: cs := by simp [hchars]
    rw [heq, lines, List.splitOnP_append_cons _ _ hc, List.mem_append]
    exact .inr hfirst

/-! ### Where a fence ends -/

/-- The text behind the blank lines at its start. -/
def pastBlankLines (cs : List Char) : List Char := (fenceEnds cs).head?.getD cs

/-- A fence can end behind a line break, or later. -/
theorem fenceEnds_cons_break {c : Char} (hc : Text.isBreak c = true) (cs : List Char) :
    fenceEnds (c :: cs) = fenceEnds cs ++ [cs] := by
  rw [fenceEnds, if_pos (Text.isBlank_of_isBreak hc), if_pos hc]

/-- A fence takes its line end and the blank lines behind. -/
theorem head?_fenceEnds (nl : LineEnd) (cs : List Char) :
    (fenceEnds (nl.chars ++ cs)).head? = some (pastBlankLines cs) := by
  have hlf (ds : List Char) : fenceEnds ('\n' :: ds) = fenceEnds ds ++ [ds] :=
    fenceEnds_cons_break rfl ds
  have hcr (ds : List Char) : fenceEnds ('\r' :: ds) = fenceEnds ds ++ [ds] :=
    fenceEnds_cons_break rfl ds
  cases nl with
  | lf => simp [LineEnd.chars, hlf, pastBlankLines]
  | cr => simp [LineEnd.chars, hcr, pastBlankLines]
  | crlf => simp [LineEnd.chars, hcr, hlf, pastBlankLines]

/-- There is only white space between the dashes of a fence and its end. -/
theorem exists_blank_of_mem_fenceEnds {cs rest : List Char} (h : rest ∈ fenceEnds cs) :
    ∃ blank, Text.allBlank blank = true ∧ cs = blank ++ rest := by
  induction cs with
  | nil => cases h
  | cons c cs ih =>
    rw [fenceEnds] at h
    split at h
    · next hc =>
      rcases List.mem_append.mp h with hmem | hmem
      · obtain ⟨blank, hblank, rfl⟩ := ih hmem
        exact ⟨c :: blank, by simpa [Text.allBlank, hc] using hblank, rfl⟩
      · obtain rfl : rest = cs := by
          split at hmem
          · exact List.mem_singleton.mp hmem
          · cases hmem
        exact ⟨[c], by simp [Text.allBlank, hc], rfl⟩
    · cases h

/-- Where a fence ends, there is only white space on the line of its dashes. -/
theorem allBlank_firstLine {cs rest : List Char} (h : rest ∈ fenceEnds cs) :
    Text.allBlank (firstLine cs) = true := by
  induction cs with
  | nil => rfl
  | cons c cs ih =>
    rw [fenceEnds] at h
    split at h
    · next hblank =>
      cases hc : Text.isBreak c with
      | true => simp [firstLine, hc, Text.allBlank]
      | false =>
        have hrest : rest ∈ fenceEnds cs := by simpa [hc] using h
        have hline := ih hrest
        simp only [Text.allBlank, firstLine] at hline
        simp [Text.allBlank, firstLine, hc, hblank, hline]
    · cases h

/-- A text that does not begin with white space has no blank lines at its start. -/
theorem pastBlankLines_of_head {cs : List Char} (h : ∀ c ∈ cs.head?, Text.isBlank c = false) :
    pastBlankLines cs = cs := by
  cases cs with
  | nil => rfl
  | cons c cs => simp [pastBlankLines, fenceEnds, h c rfl]

/-- The blank lines at the start are trimmed off. -/
theorem trim_pastBlankLines (cs : List Char) : Text.trim (pastBlankLines cs) = Text.trim cs := by
  cases hends : (fenceEnds cs).head? with
  | none => rw [pastBlankLines, hends, Option.getD_none]
  | some rest =>
    obtain ⟨blank, hblank, rfl⟩ := exists_blank_of_mem_fenceEnds (List.mem_of_head? hends)
    rw [pastBlankLines, hends, Option.getD_some, Text.trim_append_of_allBlank hblank]

/-! ### Where a fence closes -/

/-- A fence is its dashes and all the white space that can follow. -/
theorem afterFence?_eq_some_iff {cs rest : List Char} :
    afterFence? cs = some rest ↔
      ∃ tail, cs = dashes ++ tail ∧ (fenceEnds tail).head? = some rest := by
  simp only [afterFence?, Option.bind_eq_some_iff, Text.after?_eq_some_iff]

/-- Front matter closes at a line end and a fence. -/
theorem afterClosing?_eq_some_iff {cs rest : List Char} :
    afterClosing? cs = some rest ↔
      ∃ (nl : LineEnd) (tail : List Char),
        cs = nl.chars ++ (dashes ++ tail) ∧ (fenceEnds tail).head? = some rest := by
  constructor
  · intro h
    unfold afterClosing? at h
    split at h
    · obtain ⟨tail, rfl, hends⟩ := afterFence?_eq_some_iff.mp h
      exact ⟨.crlf, tail, rfl, hends⟩
    · obtain ⟨tail, rfl, hends⟩ := afterFence?_eq_some_iff.mp h
      exact ⟨.cr, tail, rfl, hends⟩
    · obtain ⟨tail, rfl, hends⟩ := afterFence?_eq_some_iff.mp h
      exact ⟨.lf, tail, rfl, hends⟩
    · cases h
  · rintro ⟨nl, tail, rfl, hends⟩
    have hfence := afterFence?_eq_some_iff.mpr ⟨tail, rfl, hends⟩
    cases nl with
    | lf => exact hfence
    | cr => exact hfence
    | crlf => exact hfence

/-- Where nothing in a text closes, the fence that closes is looked for behind it. -/
theorem untilClosing_append {inner rest : List Char}
    (h : ∀ cs, cs <:+ inner → cs ≠ [] → afterClosing? (cs ++ rest) = none) :
    untilClosing (inner ++ rest) = (untilClosing rest).map fun p ↦ (inner ++ p.1, p.2) := by
  induction inner with
  | nil => simp
  | cons c inner ih =>
    have hnone := h (c :: inner) List.suffix_rfl (List.cons_ne_nil c inner)
    have hih := ih fun cs hcs ↦ h cs (hcs.trans (List.suffix_cons c inner))
    rw [List.cons_append] at hnone
    rw [List.cons_append, untilClosing, hnone, hih]
    simp [Function.comp_def]

/-! ### Text between fences -/

private theorem exists_of_append_cons_eq {as bs lead rest : List Char} {c : Char}
    (h : as ++ c :: bs = lead ++ rest) (hc : c ∉ lead) :
    ∃ more, as = lead ++ more ∧ rest = more ++ c :: bs := by
  rcases List.append_eq_append_iff.mp h with ⟨front, hlead, hrest⟩ | ⟨more, has, hrest⟩
  · cases front with
    | nil => exact ⟨[], by simpa using hlead.symm, by simpa using hrest.symm⟩
    | cons d front =>
      cases hrest
      exact absurd (by simp [hlead]) hc
  · exact ⟨more, has, hrest⟩

section Enclosed

variable {inner : List Char}

/-- Nothing closes inside a text that can stand between fences. -/
theorem Enclosable.afterClosing?_eq_none (h : Enclosable inner) {cs : List Char}
    (hcs : cs <:+ inner) (hne : cs ≠ []) {c : Char} (hc : Text.isBreak c = true)
    (rest : List Char) : afterClosing? (cs ++ c :: rest) = none := by
  rw [Option.eq_none_iff_forall_ne_some]
  intro behind hclosing
  obtain ⟨nl, tail, heq, hends⟩ := afterClosing?_eq_some_iff.mp hclosing
  obtain ⟨before, rfl⟩ := hcs
  rcases List.append_eq_append_iff.mp heq with ⟨more, hnl, -⟩ | ⟨more, rfl, hmore⟩
  · -- The line end would go on behind the text, which ends in no white space.
    obtain ⟨d, hd, hblank⟩ := h.ends
    have hlast := List.getLast?_eq_some_getLast hne
    rw [List.getLast?_append, hlast, Option.some_or, ← hlast] at hd
    have hmem : d ∈ nl.chars := by
      rw [hnl]
      exact List.mem_append_left _ (List.mem_of_getLast? hd)
    rw [Text.isBlank_of_isBreak (nl.isBreak_of_mem hmem)] at hblank
    cases hblank
  · -- The dashes do not go on behind the text, so their line is one of its lines.
    obtain ⟨line, rfl, rfl⟩ := exists_of_append_cons_eq hmore.symm (notMem_dashes hc)
    have hline := h.no_fence (firstLine (dashes ++ line)) (firstLine_mem_lines _ _ _)
    have hblank := allBlank_firstLine (List.mem_of_head? hends)
    rw [firstLine_append_break _ hc] at hblank
    have hdashes : firstLine (dashes ++ line) = dashes ++ firstLine line := rfl
    rw [hdashes, isFence_dashes, hblank] at hline
    cases hline

/-- The closing fence is found behind a text that can stand between fences. -/
theorem Enclosable.untilClosing_eq (h : Enclosable inner) (nl₂ nl₃ : LineEnd) (body : List Char) :
    untilClosing (inner ++ (nl₂.chars ++ (dashes ++ (nl₃.chars ++ body)))) =
      some (inner, pastBlankLines body) := by
  have hclosing : afterClosing? (nl₂.chars ++ (dashes ++ (nl₃.chars ++ body))) =
      some (pastBlankLines body) :=
    afterClosing?_eq_some_iff.mpr ⟨nl₂, _, rfl, head?_fenceEnds nl₃ body⟩
  obtain ⟨c, chars, hchars⟩ := List.exists_cons_of_ne_nil nl₂.chars_ne_nil
  have hc : Text.isBreak c = true := by
    apply nl₂.isBreak_of_mem
    rw [hchars]
    exact List.mem_cons_self
  rw [hchars, List.cons_append] at hclosing ⊢
  rw [untilClosing_append fun cs hcs hne ↦ h.afterClosing?_eq_none hcs hne hc _, untilClosing,
    hclosing]
  simp

/-- A document splits where its front matter closes, if that begins right behind a line end. -/
theorem split_of_untilClosing {cs behind : List Char}
    (hstart : ∀ c ∈ cs.head?, Text.isBlank c = false) (hne : inner ≠ [])
    (h : untilClosing cs = some (inner, behind)) (nl : LineEnd) :
    split (dashes ++ (nl.chars ++ cs)) = .present inner behind := by
  have hfirst := head?_fenceEnds nl cs
  rw [pastBlankLines_of_head hstart] at hfirst
  obtain ⟨others, hends⟩ := List.head?_eq_some_iff.mp hfirst
  obtain ⟨c, rest, rfl⟩ := List.exists_cons_of_ne_nil hne
  rw [split, Text.after?_eq_some_iff.mpr rfl]
  simp only [hends, List.findSome?_cons, h]

/-- A text that can stand between fences is found between them. -/
theorem split_fenced (h : Enclosable inner) (nl₁ nl₂ nl₃ : LineEnd) (body : List Char) :
    split (dashes ++ (nl₁.chars ++ (inner ++ (nl₂.chars ++ (dashes ++ (nl₃.chars ++ body)))))) =
      .present inner (pastBlankLines body) := by
  obtain ⟨c, hc, hblank⟩ := h.starts
  obtain ⟨rest, rfl⟩ := List.head?_eq_some_iff.mp hc
  have hstart : ∀ d ∈ (c :: rest ++ (nl₂.chars ++ (dashes ++ (nl₃.chars ++ body)))).head?,
      Text.isBlank d = false := by
    intro d hd
    cases hd
    exact hblank
  exact split_of_untilClosing hstart (List.cons_ne_nil c rest) (h.untilClosing_eq nl₂ nl₃ body) nl₁

end Enclosed

/-- The characters of a document with front matter. -/
theorem toList_fenced (nl₁ nl₂ nl₃ : LineEnd) (inner body : String) :
    (fenced nl₁ nl₂ nl₃ inner body).toList =
      dashes ++ (nl₁.chars ++ (inner.toList ++
        (nl₂.chars ++ (dashes ++ (nl₃.chars ++ body.toList))))) := by
  simp [fenced, LineEnd.text, dashes]

/-- Front matter is decoded as it stands between its fences, whatever the body holds: the document
has its metadata and the trimmed body, and is all template if it does not decode to a mapping. -/
theorem parse_fenced {yaml : String} (h : Enclosable yaml.toList) (nl₁ nl₂ nl₃ : LineEnd)
    (body : String) (decode : Decoder) :
    let source := fenced nl₁ nl₂ nl₃ yaml body
    (∃ behind, split source.toList = .present yaml.toList behind) ∧
      parse decode source =
        match decode yaml with
        | some .null => ⟨metadata ∅, Text.trimmed body⟩
        | some (.object fields) => ⟨metadata (.ofList fields), Text.trimmed body⟩
        | _ => ⟨{}, normalised source⟩ := by
  intro source
  have hsplit : split source.toList = .present yaml.toList (pastBlankLines body.toList) := by
    rw [toList_fenced]
    exact split_fenced h nl₁ nl₂ nl₃ body.toList
  refine ⟨⟨_, hsplit⟩, ?_⟩
  have htrim : String.ofList (Text.trim (pastBlankLines body.toList)) = Text.trimmed body := by
    rw [trim_pastBlankLines, Text.trimmed]
  simp only [parse, hsplit, mapping?, String.ofList_toList, htrim]
  cases decode yaml with
  | none => rfl
  | some v => cases v <;> rfl

/-- Front matter with mixed line ends, and fences in the body. -/
theorem parse_fenced_fences_behind :
    let decode : Decoder := fun yaml ↦
      if yaml = "a: 1\r---b" then some (.object [("name", .string "x")]) else none
    let source := fenced .cr .crlf .lf "a: 1\r---b" " \n---\n---\n"
    Enclosable "a: 1\r---b".toList ∧
      source = "---\ra: 1\r---b\r\n---\n \n---\n---\n" ∧
      parse decode source = ⟨metadata (.ofList [("name", .string "x")]), "---\n---"⟩ := by
  intro decode source
  have hstands : Enclosable "a: 1\r---b".toList :=
    ⟨⟨'a', rfl, by decide⟩, ⟨'b', rfl, by decide⟩, by decide⟩
  refine ⟨hstands, by decide, ?_⟩
  have hparse := (parse_fenced hstands .cr .crlf .lf " \n---\n---\n" decode).2
  have htrim : Text.trimmed " \n---\n---\n" = "---\n---" := by decide
  rw [htrim] at hparse
  exact hparse

end PromptDoc.FrontMatter
