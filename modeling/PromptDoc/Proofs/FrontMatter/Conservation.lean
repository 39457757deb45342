import PromptDoc.Proofs.FrontMatter.Fences

/-!
# What a parse keeps of a document

Apart from white space a document is its fences, the text between them and its template, in order;
where no front matter is found, or it does not decode, the document is its template alone. A
template that was normalised keeps the line breaks of its text as well. Main statement: what becomes
of the text of a document in each outcome (`parse_conserves`).
-/

namespace PromptDoc.FrontMatter

/-! ### Text without white space -/

/-- A text without its white space. -/
def ink (cs : List Char) : List Char := cs.filter fun c ↦ !Text.isBlank c

/-- The ink of two texts one behind the other is the ink of both. -/
@[simp] theorem ink_append (as bs : List Char) : ink (as ++ bs) = ink as ++ ink bs :=
  List.filter_append as bs

/-- The dashes of a fence are all ink. -/
@[simp] theorem ink_dashes : ink dashes = dashes := rfl

/-- White space has no ink. -/
theorem ink_of_allBlank {cs : List Char} (h : Text.allBlank cs = true) : ink cs = [] := by
  rw [Text.allBlank, List.all_eq_true] at h
  rw [ink, List.filter_eq_nil_iff]
  intro c hc
  simp [h c hc]

/-- A line end is white space. -/
theorem LineEnd.allBlank_chars (nl : LineEnd) : Text.allBlank nl.chars = true := by
  cases nl <;> rfl

/-- Trimming keeps the ink. -/
theorem ink_trim (cs : List Char) : ink (Text.trim cs) = ink cs := Text.filter_trim cs

/-- Normalising keeps the ink. -/
theorem ink_normalise (cs : List Char) : ink (normalise cs) = ink cs := filter_normalise cs

/-! ### The pieces of a document -/

/-- A text is two fences, an inner text between them and a body behind, with white space in between
and nothing else. -/
def Encloses (source inner body : List Char) : Prop :=
  ∃ opening closing behind,
    source = dashes ++ opening ++ inner ++ closing ++ dashes ++ behind ++ body ∧
      Text.allBlank opening = true ∧ Text.allBlank closing = true ∧ Text.allBlank behind = true

/-- The ink of such a text. -/
theorem Encloses.ink_eq {source inner body : List Char} (h : Encloses source inner body) :
    ink source = dashes ++ ink inner ++ dashes ++ ink body := by
  obtain ⟨opening, closing, behind, rfl, hopening, hclosing, hbehind⟩ := h
  simp only [ink_append, ink_dashes, ink_of_allBlank hopening, ink_of_allBlank hclosing,
    ink_of_allBlank hbehind, List.append_nil]

/-- A fence is its dashes and white space. -/
theorem exists_of_afterFence? {cs rest : List Char} (h : afterFence? cs = some rest) :
    ∃ blank, cs = dashes ++ blank ++ rest ∧ Text.allBlank blank = true := by
  obtain ⟨tail, rfl, hends⟩ := afterFence?_eq_some_iff.mp h
  obtain ⟨blank, hblank, rfl⟩ := exists_blank_of_mem_fenceEnds (List.mem_of_head? hends)
  exact ⟨blank, (List.append_assoc ..).symm, hblank⟩

/-- Front matter closes with a line end and a fence. -/
theorem exists_of_afterClosing? {cs rest : List Char} (h : afterClosing? cs = some rest) :
    ∃ (nl : LineEnd) (blank : List Char),
      cs = nl.chars ++ dashes ++ blank ++ rest ∧ Text.allBlank blank = true := by
  obtain ⟨nl, tail, rfl, hends⟩ := afterClosing?_eq_some_iff.mp h
  obtain ⟨blank, hblank, rfl⟩ := exists_blank_of_mem_fenceEnds (List.mem_of_head? hends)
  exact ⟨nl, blank, by simp only [List.append_assoc], hblank⟩

/-- What closes front matter stands right behind the text in front of it. -/
theorem exists_of_untilClosing {cs inner body : List Char}
    (h : untilClosing cs = some (inner, body)) :
    ∃ closing, cs = inner ++ closing ∧ afterClosing? closing = some body := by
  induction cs generalizing inner with
  | nil => cases h
  | cons c cs ih =>
    rw [untilClosing] at h
    split at h
    · next behind hclosing =>
      cases h
      exact ⟨c :: cs, rfl, hclosing⟩
    · obtain ⟨p, hp, heq⟩ := Option.map_eq_some_iff.mp h
      cases heq
      obtain ⟨closing, rfl, hclosing⟩ := ih hp
      exact ⟨closing, rfl, hclosing⟩

/-- The text between the fences of a document, which may be empty, and the text behind them. -/
def Split.enclosed? : Split → Option (List Char × List Char)
  | present inner body => some (inner, body)
  | empty body => some ([], body)
  | absent => none

/-- Front matter that is found stands behind an opening fence, and a fence closes it. -/
theorem exists_start_of_split {source inner body : List Char}
    (h : (split source).enclosed? = some (inner, body)) :
    ∃ rest, source = dashes ++ rest ∧ ∃ start ∈ fenceEnds rest,
      untilClosing start = some (inner, body) ∨ inner = [] ∧ afterFence? start = some body := by
  rw [split] at h
  split at h
  · cases h
  · next rest hrest =>
    refine ⟨rest, Text.after?_eq_some_iff.mp hrest, ?_⟩
    dsimp only at h
    split at h
    · next behind hfound =>
      cases h
      obtain ⟨start, hstart, hclosing⟩ := List.exists_of_findSome?_eq_some hfound
      exact ⟨start, hstart, .inl hclosing⟩
    · next front behind _ hfound =>
      cases h
      obtain ⟨start, hstart, hclosing⟩ := List.exists_of_findSome?_eq_some hfound
      exact ⟨start, hstart, .inl hclosing⟩
    · split at h
      · next behind hfound =>
        cases h
        obtain ⟨start, hstart, hfence⟩ := List.exists_of_findSome?_eq_some hfound
        exact ⟨start, hstart, .inr ⟨rfl, hfence⟩⟩
      · cases h

/-- A document with front matter is its two fences, the text between them and the text behind. -/
theorem encloses_split {source inner body : List Char}
    (h : (split source).enclosed? = some (inner, body)) : Encloses source inner body := by
  obtain ⟨rest, rfl, start, hstart, hfound⟩ := exists_start_of_split h
  obtain ⟨opening, hopening, rfl⟩ := exists_blank_of_mem_fenceEnds hstart
  rcases hfound with hclosing | ⟨rfl, hfence⟩
  · obtain ⟨closing, rfl, hbody⟩ := exists_of_untilClosing hclosing
    obtain ⟨nl, behind, rfl, hbehind⟩ := exists_of_afterClosing? hbody
    refine ⟨opening, nl.chars, behind, ?_, hopening, nl.allBlank_chars, hbehind⟩
    simp only [List.append_assoc]
  · obtain ⟨behind, rfl, hbehind⟩ := exists_of_afterFence? hfence
    refine ⟨opening, [], behind, ?_, hopening, rfl, hbehind⟩
    simp only [List.append_assoc, List.nil_append]

/-! ### Normalised texts -/

/-- A text as normalising leaves another one. -/
structure Normalises (text result : List Char) : Prop where
  /-- The line breaks are kept, with all that is no white space between them. -/
  kept : (result.filter fun c ↦ !Text.isBlank c || Text.isBreak c) =
    text.filter fun c ↦ !Text.isBlank c || Text.isBreak c
  /-- There is no other white space than line breaks and spaces. -/
  plain : ∀ c ∈ result, Text.isBlank c = true → c = '\n' ∨ c = '\r' ∨ c = ' '
  head : result.head? ≠ some ' '
  last : result.getLast? ≠ some ' '
  settled : normalise result = result

/-- The characters that stay when a text is normalised, its outer spaces apart. -/
theorem isPlain_of_mem_normalise {cs : List Char} {c : Char} (h : c ∈ normalise cs) :
    (!Text.isBlank c || isPlainSpace c) = true :=
  (List.mem_filter.mp ((Text.trimBy_sublist _ _).mem h)).2

/-- What normalising leaves. -/
theorem normalises_normalise (cs : List Char) : Normalises cs (normalise cs) where
  kept := by
    have hclass : (fun c ↦ !Text.isBlank c || Text.isBreak c) = fun c ↦ !isTrimmedSpace c := by
      funext c
      rw [isTrimmedSpace, Bool.not_and, Bool.not_not]
    rw [hclass, normalise, Text.filter_trimBy, List.filter_filter]
    congr 1
    funext c
    cases hblank : Text.isBlank c <;> cases hbreak : Text.isBreak c <;>
      simp [isTrimmedSpace, isPlainSpace, hblank, hbreak]
  plain c hc hblank := by
    have hplain := isPlain_of_mem_normalise hc
    rw [hblank, Bool.not_true, Bool.false_or] at hplain
    simpa [isPlainSpace, Text.isBreak, or_assoc] using hplain
  head h := by
    have hspace : isTrimmedSpace ' ' = false := Text.not_of_mem_head?_trimBy h
    cases hspace
  last h := by
    have hspace : isTrimmedSpace ' ' = false := Text.not_of_mem_getLast?_trimBy h
    cases hspace
  settled := by
    have hfilter : ((normalise cs).filter fun c ↦ !Text.isBlank c || isPlainSpace c) =
        normalise cs :=
      List.filter_eq_self.mpr fun c hc ↦ isPlain_of_mem_normalise hc
    rw [normalise, hfilter]
    exact Text.trimBy_eq_self (fun c hc ↦ Text.not_of_mem_head?_trimBy hc)
      fun c hc ↦ Text.not_of_mem_getLast?_trimBy hc

/-! ### The four outcomes -/

/-- Front matter decodes to a mapping, or to nothing at all. -/
def Decodes (decode : Decoder) (inner : List Char) : Prop :=
  decode (String.ofList inner) = some .null ∨
    ∃ fields, decode (String.ofList inner) = some (.object fields)

/-- A mapping is read from front matter exactly when it decodes to one. -/
theorem isSome_mapping?_iff {decode : Decoder} {inner : List Char} :
    (mapping? decode inner).isSome = true ↔ Decodes decode inner := by
  rw [mapping?, Decodes]
  cases decode (String.ofList inner) with
  | none => simp
  | some v => cases v <;> simp [Json.Value.fields?]

/-- A document that is all template loses no ink, and its template is normalised. -/
structure AllTemplate (text : List Char) (p : ParsedPrompt) : Prop where
  metadata : p.metadata = {}
  ink_eq : ink p.template.toList = ink text
  normalises : Normalises text p.template.toList

/-- A document that is all template. -/
theorem allTemplate_plain (cs : List Char) : AllTemplate cs (plain cs) where
  metadata := rfl
  ink_eq := by rw [plain, String.toList_ofList, ink_normalise]
  normalises := by
    rw [plain, String.toList_ofList]
    exact normalises_normalise cs

/-- Parsing loses no text. Without front matter, and where it does not decode, the document is all
template. Empty front matter is two fences, and what is behind them is all template. Front matter
that decodes stands between its fences, and what is behind them is in the template. -/
theorem parse_conserves (decode : Decoder) (source : String) :
    let p := parse decode source
    match split source.toList with
    | .absent => AllTemplate source.toList p
    | .empty body =>
      Encloses source.toList [] body ∧ AllTemplate body p ∧
        ink source.toList = dashes ++ dashes ++ ink p.template.toList
    | .present inner body =>
      Encloses source.toList inner body ∧
        (Decodes decode inner →
          ink source.toList = dashes ++ ink inner ++ dashes ++ ink p.template.toList) ∧
        (¬ Decodes decode inner → AllTemplate source.toList p) := by
  intro p
  cases hsplit : split source.toList with
  | absent =>
    have hp : p = plain source.toList := by simp only [p, parse, hsplit]
    rw [hp]
    exact allTemplate_plain _
  | empty body =>
    have hencloses : Encloses source.toList [] body := encloses_split (by rw [hsplit]; rfl)
    have hp : p = plain body := by simp only [p, parse, hsplit]
    have htemplate := allTemplate_plain body
    rw [hp]
    refine ⟨hencloses, htemplate, ?_⟩
    rw [hencloses.ink_eq, htemplate.ink_eq]
    rfl
  | present inner body =>
    have hencloses : Encloses source.toList inner body := encloses_split (by rw [hsplit]; rfl)
    refine ⟨hencloses, ?_⟩
    cases hmapping : mapping? decode inner with
    | none =>
      have hp : p = plain source.toList := by simp only [p, parse, hsplit, hmapping]
      have hrejected : ¬ Decodes decode inner := by
        rw [← isSome_mapping?_iff, hmapping]
        exact Bool.false_ne_true
      rw [hp]
      exact ⟨fun hdecodes ↦ absurd hdecodes hrejected, fun _ ↦ allTemplate_plain _⟩
    | some raw =>
      have hp : p = ⟨metadata raw, String.ofList (Text.trim body)⟩ := by
        simp only [p, parse, hsplit, hmapping]
      have hdecodes : Decodes decode inner := by
        rw [← isSome_mapping?_iff, hmapping]
        rfl
      refine ⟨fun _ ↦ ?_, fun hrejected ↦ absurd hdecodes hrejected⟩
      rw [hp, String.toList_ofList, ink_trim, hencloses.ink_eq]

end PromptDoc.FrontMatter
