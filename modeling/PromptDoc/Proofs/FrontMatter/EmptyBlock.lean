import PromptDoc.Proofs.FrontMatter.Fences
import PromptDoc.Yaml.Document

/-!
# Empty front matter

Two fences with nothing between them are empty front matter only as long as no fence stands in the
text behind them: a later fence is taken as the closing one, and what is in front of it is decoded.
Main statements: a text closes front matter nowhere exactly when none of its lines but the first and
the last is a fence (`untilClosing_eq_none_iff`), so a document of two fences and a body is the
normalised body exactly when no line of the body but the last is a fence (`parse_emptyBlock_iff`).
-/

namespace PromptDoc.FrontMatter

/-- The document with two fences and a text behind them. -/
def emptyBlock (nl₁ nl₂ : LineEnd) (body : String) : String :=
  "---" ++ nl₁.text ++ "---" ++ nl₂.text ++ body

/-! ### Lines and line breaks -/

/-- The first line of a text is followed by others if the text has a line break. -/
theorem lines_eq_cons (cs : List Char) : ∃ others, lines cs = firstLine cs :: others :=
  List.head?_eq_some_iff.mp (head?_lines cs)

/-- A line break ends an empty first line. -/
theorem lines_cons_break {c : Char} (hc : Text.isBreak c = true) (cs : List Char) :
    lines (c :: cs) = [] :: lines cs := by
  rw [lines, List.splitOnP_cons_eq_if_modifyHead, if_pos hc, lines]

/-- Any other character belongs to the first line. -/
theorem tail_lines_cons {c : Char} (hc : Text.isBreak c = false) (cs : List Char) :
    (lines (c :: cs)).tail = (lines cs).tail := by
  rw [lines, List.splitOnP_cons_eq_if_modifyHead, if_neg (by simp [hc]), lines]
  cases cs.splitOnP Text.isBreak with
  | nil => rfl
  | cons line others => rfl

/-- Dashes belong to the first line. -/
theorem tail_lines_dashes (cs : List Char) : (lines (dashes ++ cs)).tail = (lines cs).tail :=
  (tail_lines_cons rfl _).trans ((tail_lines_cons rfl _).trans (tail_lines_cons rfl _))

/-- A fence ends nowhere behind its dashes if there is more than white space on their line, or no
line follows. -/
theorem fenceEnds_eq_nil_iff {cs : List Char} :
    fenceEnds cs = [] ↔ (Text.allBlank (firstLine cs) = true → (lines cs).tail = []) := by
  induction cs with
  | nil => simp [fenceEnds, lines, List.splitOnP_nil]
  | cons c cs ih =>
    cases hbreak : Text.isBreak c with
    | true =>
      obtain ⟨others, hlines⟩ := lines_eq_cons cs
      rw [fenceEnds_cons_break hbreak, lines_cons_break hbreak]
      simp [firstLine, hbreak, Text.allBlank, hlines]
    | false =>
      rw [tail_lines_cons hbreak, fenceEnds]
      cases hblank : Text.isBlank c with
      | true => simpa [firstLine, hbreak, Text.allBlank, hblank] using ih
      | false => simp [firstLine, hbreak, Text.allBlank, hblank]

/-- No fence stands at the start of a text if its first line is none, or no line follows. -/
theorem afterFence?_eq_none_iff {cs : List Char} :
    afterFence? cs = none ↔ (isFence (firstLine cs) = true → (lines cs).tail = []) := by
  cases hafter : Text.after? dashes cs with
  | none =>
    have hline : Text.after? dashes (firstLine cs) = none := by
      rw [Option.eq_none_iff_forall_ne_some] at hafter ⊢
      intro tail htail
      apply hafter (tail ++ cs.dropWhile fun c ↦ !Text.isBreak c)
      rw [Text.after?_eq_some_iff] at htail ⊢
      rw [← List.append_assoc, ← htail, firstLine, List.takeWhile_append_dropWhile]
    simp [afterFence?, hafter, isFence, hline]
  | some tail =>
    obtain rfl := Text.after?_eq_some_iff.mp hafter
    have hfirst : firstLine (dashes ++ tail) = dashes ++ firstLine tail := rfl
    rw [afterFence?, hafter, Option.bind_some, hfirst, isFence_dashes, tail_lines_dashes,
      ← fenceEnds_eq_nil_iff, List.head?_eq_none_iff]

/-! ### Where front matter can close -/

/-- Front matter closes nowhere in a text if neither at its start nor later. -/
theorem untilClosing_cons_eq_none_iff {c : Char} {cs : List Char} :
    untilClosing (c :: cs) = none ↔ afterClosing? (c :: cs) = none ∧ untilClosing cs = none := by
  rw [untilClosing]
  cases afterClosing? (c :: cs) with
  | none => simp
  | some rest => simp

/-- Front matter closes at line breaks only. -/
theorem afterClosing?_cons_of_not_isBreak {c : Char} (hc : Text.isBreak c = false)
    (cs : List Char) : afterClosing? (c :: cs) = none := by
  unfold afterClosing?
  split
  · next heq =>
    cases heq
    cases hc
  · next heq =>
    cases heq
    cases hc
  · next heq =>
    cases heq
    cases hc
  · rfl

/-- Front matter does not close at a line break if no fence follows it. A carriage return goes with
the line feed behind it, where front matter would close as well. -/
theorem afterClosing?_cons_eq_none_iff {c : Char} (hc : Text.isBreak c = true) {cs : List Char}
    (h : untilClosing cs = none) :
    afterClosing? (c :: cs) = none ↔ (isFence (firstLine cs) = true → (lines cs).tail = []) := by
  rw [← afterFence?_eq_none_iff]
  unfold afterClosing?
  split
  · next rest heq =>
    cases heq
    have hlf : afterFence? rest = none := (untilClosing_cons_eq_none_iff.mp h).1
    exact iff_of_true hlf rfl
  · next heq =>
    cases heq
    rfl
  · next heq =>
    cases heq
    rfl
  · next hcr hlf =>
    rw [Text.isBreak, Bool.or_eq_true, beq_iff_eq, beq_iff_eq] at hc
    rcases hc with rfl | rfl
    · exact absurd rfl (hlf cs)
    · exact absurd rfl (hcr cs)

/-- A text closes front matter nowhere exactly when none of its lines is a fence. The first line may
be one, as no line break is in front of it, and the last one, as none is behind it. -/
theorem untilClosing_eq_none_iff {cs : List Char} :
    untilClosing cs = none ↔ ∀ line ∈ (lines cs).tail.dropLast, isFence line = false := by
  induction cs with
  | nil => simp [untilClosing, lines, List.splitOnP_nil]
  | cons c cs ih =>
    rw [untilClosing_cons_eq_none_iff]
    cases hc : Text.isBreak c with
    | false =>
      rw [tail_lines_cons hc, ← ih]
      exact and_iff_right (afterClosing?_cons_of_not_isBreak hc cs)
    | true =>
      obtain ⟨others, hlines⟩ := lines_eq_cons cs
      rw [and_congr_left (afterClosing?_cons_eq_none_iff hc), ih, lines_cons_break hc, hlines,
        List.tail_cons, List.tail_cons]
      cases others with
      | nil => simp
      | cons line others => simp [List.dropLast_cons_cons]

/-! ### Two fences and a body -/

/-- Where a text begins with no white space, a fence can end behind the line end in front of it; in
front of a line feed that belongs to the line end it can as well. -/
theorem fenceEnds_lineEnd (nl : LineEnd) {cs : List Char} (h : fenceEnds cs = []) :
    fenceEnds (nl.chars ++ cs) = [cs] ∨ fenceEnds (nl.chars ++ cs) = [cs, '\n' :: cs] := by
  have hbreak {c : Char} (hc : Text.isBreak c = true) : fenceEnds (c :: cs) = [cs] := by
    rw [fenceEnds_cons_break hc, h, List.nil_append]
  cases nl with
  | lf => exact .inl (hbreak rfl)
  | cr => exact .inl (hbreak rfl)
  | crlf =>
    have hcrlf : fenceEnds ('\r' :: '\n' :: cs) = [cs] ++ ['\n' :: cs] := by
      rw [fenceEnds_cons_break rfl, hbreak rfl]
    exact .inr hcrlf

/-- The text in front of a closing fence is not empty if the text cannot close at its start. -/
theorem ne_nil_of_untilClosing {c : Char} (hc : Text.isBreak c = false)
    {cs inner behind : List Char} (h : untilClosing (c :: cs) = some (inner, behind)) :
    inner ≠ [] := by
  rw [untilClosing, afterClosing?_cons_of_not_isBreak hc] at h
  obtain ⟨p, -, heq⟩ := Option.map_eq_some_iff.mp h
  cases heq
  exact List.cons_ne_nil c p.1

/-- A document of two fences and a body is split at the first fence behind them, and if there is
none right at the two. -/
theorem split_emptyBlock (nl₁ nl₂ : LineEnd) (body : List Char) :
    split (dashes ++ (nl₁.chars ++ (dashes ++ (nl₂.chars ++ body)))) =
      match untilClosing (dashes ++ (nl₂.chars ++ body)) with
      | some (inner, behind) => .present inner behind
      | none => .empty (pastBlankLines body) := by
  have hfence : afterFence? (dashes ++ (nl₂.chars ++ body)) = some (pastBlankLines body) :=
    afterFence?_eq_some_iff.mpr ⟨_, rfl, head?_fenceEnds nl₂ body⟩
  have hne (inner behind : List Char)
      (h : untilClosing (dashes ++ (nl₂.chars ++ body)) = some (inner, behind)) : inner ≠ [] :=
    ne_nil_of_untilClosing rfl h
  have hnil : fenceEnds (dashes ++ (nl₂.chars ++ body)) = [] := rfl
  have hends := fenceEnds_lineEnd nl₁ hnil
  generalize dashes ++ (nl₂.chars ++ body) = cs at hfence hne hnil hends ⊢
  rw [split, Text.after?_eq_some_iff.mpr rfl]
  cases hclosing : untilClosing cs with
  | some p =>
    obtain ⟨inner, behind⟩ := p
    obtain ⟨c, rest, rfl⟩ := List.exists_cons_of_ne_nil (hne inner behind hclosing)
    rcases hends with hends | hends
    · simp only [hends, List.findSome?_cons, hclosing]
    · simp only [hends, List.findSome?_cons, hclosing]
  | none =>
    have hlf : untilClosing ('\n' :: cs) = some ([], pastBlankLines body) := by
      rw [untilClosing, show afterClosing? ('\n' :: cs) = afterFence? cs from rfl, hfence]
    rcases hends with hends | hends
    · simp only [hends, List.findSome?_cons, List.findSome?_nil, hclosing, hfence]
    · simp only [hends, List.findSome?_cons, hclosing, hlf]

/-- The characters of a document of two fences and a body. -/
theorem toList_emptyBlock (nl₁ nl₂ : LineEnd) (body : String) :
    (emptyBlock nl₁ nl₂ body).toList =
      dashes ++ (nl₁.chars ++ (dashes ++ (nl₂.chars ++ body.toList))) := by
  simp [emptyBlock, LineEnd.text, dashes]

/-- Behind two fences front matter closes nowhere exactly when no line of the body is a fence,
except that the last one may be. -/
theorem untilClosing_dashes_eq_none_iff (nl : LineEnd) (body : List Char) :
    untilClosing (dashes ++ (nl.chars ++ body)) = none ↔
      ∀ line ∈ (lines body).dropLast, isFence line = false := by
  obtain ⟨others, hlines⟩ := lines_eq_cons body
  rw [untilClosing_eq_none_iff, tail_lines_dashes]
  cases nl with
  | lf => rw [LineEnd.chars, List.singleton_append, lines_cons_break rfl, List.tail_cons]
  | cr => rw [LineEnd.chars, List.singleton_append, lines_cons_break rfl, List.tail_cons]
  | crlf =>
    have hcrlf : lines (LineEnd.crlf.chars ++ body) = [] :: [] :: lines body :=
      (lines_cons_break rfl _).trans (congrArg _ (lines_cons_break rfl _))
    have hempty : isFence [] = false := rfl
    rw [hcrlf, List.tail_cons, hlines, List.dropLast_cons_cons, List.forall_mem_cons]
    exact and_iff_right hempty

/-- A document without front matter is its normalised text. -/
theorem plain_toList (source : String) : plain source.toList = ⟨{}, normalised source⟩ := rfl

/-- Normalising a document of two fences and a body keeps the fences. -/
theorem normalised_emptyBlock_ne (nl₁ nl₂ : LineEnd) (body : String) :
    normalised (emptyBlock nl₁ nl₂ body) ≠ normalised body := by
  intro heq
  have hchars : normalise (emptyBlock nl₁ nl₂ body).toList = normalise body.toList :=
    String.ofList_injective heq
  have hkept := congrArg (fun cs ↦ (cs.filter fun c ↦ !Text.isBlank c).length) hchars
  have hdashes : (dashes.filter fun c ↦ !Text.isBlank c).length = 3 := rfl
  simp only [filter_normalise, toList_emptyBlock, List.filter_append, List.length_append] at hkept
  omega

/-- A document of two fences and a body that does not begin with white space is the normalised body,
without metadata, exactly when no line of the body but the last is a fence. A fence is taken as the
closing one instead: what is in front of it is decoded, and if it does not decode to a mapping the
document is all template, with its first two fences. -/
theorem parse_emptyBlock_iff {body : String} (h : ∀ c ∈ body.toList.head?, Text.isBlank c = false)
    (nl₁ nl₂ : LineEnd) (decode : Decoder) :
    parse decode (emptyBlock nl₁ nl₂ body) = ⟨{}, normalised body⟩ ↔
      ∀ line ∈ (lines body.toList).dropLast, isFence line = false := by
  have hsplit := split_emptyBlock nl₁ nl₂ body.toList
  rw [← toList_emptyBlock, pastBlankLines_of_head h] at hsplit
  rw [← untilClosing_dashes_eq_none_iff nl₂]
  cases hclosing : untilClosing (dashes ++ (nl₂.chars ++ body.toList)) with
  | none =>
    rw [hclosing] at hsplit
    simp only [parse, hsplit]
    exact iff_of_true rfl trivial
  | some p =>
    rw [hclosing] at hsplit
    refine iff_of_false ?_ (Option.some_ne_none p)
    intro heq
    cases hdecode : mapping? decode p.1 with
    | none =>
      simp only [parse, hsplit, hdecode, plain_toList, ParsedPrompt.mk.injEq] at heq
      exact normalised_emptyBlock_ne nl₁ nl₂ body heq.2
    | some raw =>
      simp only [parse, hsplit, hdecode, ParsedPrompt.mk.injEq] at heq
      have hraw : some raw = none := congrArg PromptMetadata.raw heq.1
      cases hraw

/-- The last line of the body is a fence, and one of the others begins with dashes. -/
theorem parse_emptyBlock_last_line_fence :
    let body := "a\n--- b\r\n---"
    (∀ c ∈ body.toList.head?, Text.isBlank c = false) ∧
      (∀ line ∈ (lines body.toList).dropLast, isFence line = false) ∧
      ∀ decode : Decoder, parse decode (emptyBlock .crlf .cr body) = ⟨{}, body⟩ := by
  intro body
  have hfirst : body.toList.head? = some 'a' := by decide
  have hstart : ∀ c ∈ body.toList.head?, Text.isBlank c = false := by
    rw [hfirst]
    rintro c ⟨⟩
    rfl
  have hlines : ∀ line ∈ (lines body.toList).dropLast, isFence line = false := by decide
  refine ⟨hstart, hlines, fun decode ↦ ?_⟩
  have hparse := (parse_emptyBlock_iff hstart .crlf .cr decode).mpr hlines
  have hnormal : normalised body = body := by decide
  rwa [hnormal] at hparse

/-- The text in front of a later fence is decoded. -/
theorem not_parse_emptyBlock_decodes :
    ¬ ∀ (nl₁ nl₂ : LineEnd) (body : String), (∀ c ∈ body.toList.head?, Text.isBlank c = false) →
      parse Yaml.read? (emptyBlock nl₁ nl₂ body) = ⟨{}, normalised body⟩ := by
  intro h
  have hfirst : "name: b\n---\nrest".toList.head? = some 'n' := by decide
  have hbody := h .lf .lf "name: b\n---\nrest" (by rw [hfirst]; rintro c ⟨⟩; rfl)
  have hparse : parse Yaml.read? (emptyBlock .lf .lf "name: b\n---\nrest") =
      ⟨metadata (.ofList [("name", .string "b")]), "rest"⟩ := by decide +kernel
  rw [hparse, ParsedPrompt.mk.injEq] at hbody
  have hname : some "b" = none := congrArg PromptMetadata.name hbody.1
  cases hname

end PromptDoc.FrontMatter
