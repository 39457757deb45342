import PromptDoc.Marker.Split

/-!
# Reading written markers back

What the pieces of a text are when the text was put together from markers and from texts in which
no marker begins. A marker can begin only where its opening stands, and the opening does not overlap
itself, so none can straddle the border of a text and a marker. Main statements: a skipped text goes
in front of the pieces of what follows (`pieces_append_of_skips`), and a written marker is read as
one piece (`pieces_of_read`).
-/

namespace PromptDoc.Marker

/-! ### Where a marker can begin -/

/-- No marker begins within the text. -/
def Clear (cs : List Char) : Prop := ¬ opening <:+: cs

/-- A text ends here, or a marker begins. -/
def AtBorder (cs : List Char) : Prop := cs = [] ∨ opening <+: cs

/-- Every marker begins with the opening. -/
theorem opening_prefix_text (m : Marker) : opening <+: m.text := by
  cases m <;>
    simp only [text, body, roleLead, historyLead, mediaLead, placeholderLead, List.append_assoc] <;>
    exact List.prefix_append _ _

/-- A marker may stand in front of anything at a border. -/
theorem atBorder_text_append (m : Marker) (rest : List Char) : AtBorder (m.text ++ rest) :=
  .inr ((opening_prefix_text m).trans (List.prefix_append _ _))

/-- A marker is read only where the opening stands. -/
theorem Reader.opening_prefix (r : Reader) {cs rest : List Char} {m : Marker}
    (h : r.read cs = some (m, rest)) : opening <+: cs := by
  rw [r.eq_append h]
  exact (opening_prefix_text m).trans (List.prefix_append _ _)

/-- Where the opening does not stand nothing is read. -/
theorem Reader.read_eq_none (r : Reader) {cs : List Char} (h : ¬ opening <+: cs) :
    r.read cs = none := by
  cases hr : r.read cs with
  | none => rfl
  | some p => exact False.elim (h (r.opening_prefix hr))

/-- What is clear is clear behind its first character. -/
theorem Clear.tail {c : Char} {cs : List Char} (h : Clear (c :: cs)) : Clear cs :=
  fun hin ↦ h (List.infix_cons_iff.mpr (.inr hin))

-- The colon ends the opening and stands nowhere else in it: a part of the opening that is followed
-- by an opening is therefore no beginning of another one.
private theorem opening_not_overlapping {s u rest : List Char} (hs : s ≠ [])
    (hsplit : opening = s ++ u) (hu : u ≠ []) : ¬ u <+: opening ++ rest := by
  intro hpre
  have hlead : opening = "<<<dotprompt".toList ++ [':'] := by decide
  have hget : u.getLast hu = ':' := by
    have hlast : (s ++ u).getLast? = some ':' := by rw [← hsplit]; decide
    rw [List.getLast?_append, List.getLast?_eq_some_getLast hu] at hlast
    exact Option.some.inj hlast
  have hlen : u.length ≤ "<<<dotprompt".toList.length := by
    have h13 : opening.length = 13 := by decide
    have h12 : "<<<dotprompt".toList.length = 12 := by decide
    have := congrArg List.length hsplit
    have := List.length_pos_iff.mpr hs
    rw [List.length_append] at *
    omega
  have hpre' : u <+: "<<<dotprompt".toList := by
    refine List.prefix_of_prefix_length_le hpre ?_ hlen
    rw [hlead, List.append_assoc]
    exact List.prefix_append _ _
  have hmem : ':' ∈ "<<<dotprompt".toList := by
    rw [← hget]
    exact hpre'.subset (List.getLast_mem hu)
  exact absurd hmem (by decide)

/-- The opening does not stand at the start of a clear text that ends at a border. -/
theorem Clear.not_opening_prefix {s rest : List Char} (h : Clear s) (hs : s ≠ [])
    (hrest : AtBorder rest) : ¬ opening <+: s ++ rest := by
  intro hpre
  have hno : ¬ opening <+: s := fun hp ↦ h hp.isInfix
  rcases hrest with rfl | ⟨x, rfl⟩
  · exact hno (by simpa using hpre)
  · rcases List.prefix_or_prefix_of_prefix hpre (List.prefix_append s _) with hp | ⟨u, hu⟩
    · exact hno hp
    · have hune : u ≠ [] := by
        rintro rfl
        rw [List.append_nil] at hu
        exact hno (hu ▸ List.prefix_refl s)
      rw [← hu, List.prefix_append_right_inj, hu] at hpre
      exact opening_not_overlapping hs hu.symm hune hpre

/-- The opening does not stand at the start of a clear text whose last character it does not have,
whatever follows. -/
theorem Clear.not_opening_prefix_of_end {s rest : List Char} {z : Char} (h : Clear (s ++ [z]))
    (hz : z ∉ opening) : ¬ opening <+: (s ++ [z]) ++ rest := by
  intro hpre
  rcases List.prefix_or_prefix_of_prefix hpre (List.prefix_append (s ++ [z]) _) with hp | hp
  · exact h hp.isInfix
  · exact hz (hp.subset (by simp))

/-! ### Skipped texts -/

/-- At no place within the text does `r` read a marker when `rest` follows. -/
def Reader.Skips (r : Reader) : (cs rest : List Char) → Prop
  | [], _ => True
  | c :: cs, rest => r.read (c :: (cs ++ rest)) = none ∧ r.Skips cs rest

/-- Two skipped texts in a row are skipped. -/
theorem Reader.Skips.append {r : Reader} {as bs rest : List Char} (ha : r.Skips as (bs ++ rest))
    (hb : r.Skips bs rest) : r.Skips (as ++ bs) rest := by
  induction as with
  | nil => exact hb
  | cons a as ih =>
    refine ⟨?_, ih ha.2⟩
    have hread := ha.1
    rwa [← List.append_assoc] at hread

/-- A clear text is skipped up to a border. -/
theorem Clear.skips {cs rest : List Char} (h : Clear cs) (hrest : AtBorder rest) (r : Reader) :
    r.Skips cs rest := by
  induction cs with
  | nil => exact True.intro
  | cons c cs ih =>
    exact ⟨r.read_eq_none (h.not_opening_prefix (List.cons_ne_nil c cs) hrest), ih h.tail⟩

/-- A clear text whose last character is not in the opening is skipped, whatever follows. -/
theorem Clear.skips_of_end {cs : List Char} {z : Char} (h : Clear (cs ++ [z])) (hz : z ∉ opening)
    (r : Reader) (rest : List Char) : r.Skips (cs ++ [z]) rest := by
  induction cs with
  | nil => exact ⟨r.read_eq_none (h.not_opening_prefix_of_end (s := []) hz), True.intro⟩
  | cons c cs ih =>
    exact ⟨r.read_eq_none (h.not_opening_prefix_of_end (s := c :: cs) hz), ih h.tail⟩

/-- Put a text in front of a split text. -/
def prependText (cs : List Char) (ps : List Piece) : List Piece := cs.foldr consText ps

/-- The pieces of a text with no marker at its front. -/
theorem pieces_of_not_read {r : Reader} {c : Char} {cs : List Char}
    (h : r.read (c :: cs) = none) : pieces r (c :: cs) = consText c (pieces r cs) := by
  rw [pieces]
  split
  next m s hm => rw [h] at hm; cases hm
  next => rfl

/-- The pieces of a skipped text and what follows it. -/
theorem pieces_append_of_skips {r : Reader} {cs rest : List Char} (h : r.Skips cs rest) :
    pieces r (cs ++ rest) = prependText cs (pieces r rest) := by
  induction cs with
  | nil => rfl
  | cons c cs ih =>
    rw [List.cons_append, pieces_of_not_read h.1, ih h.2]
    rfl

/-- The pieces of a text with a marker at its front. -/
theorem pieces_of_read {r : Reader} {cs rest : List Char} {m : Marker}
    (h : r.read cs = some (m, rest)) : pieces r cs = .marker m :: pieces r rest := by
  cases cs with
  | nil =>
    have hlen := congrArg List.length (r.eq_append h)
    have := m.text_length_pos
    simp only [List.length_nil, List.length_append] at hlen
    omega
  | cons c cs =>
    rw [pieces]
    split
    next m' rest' hm =>
      rw [h] at hm
      cases hm
      rfl
    next hm => rw [h] at hm; cases hm

/-- No text stands first among the pieces. -/
def MarkerFirst : List Piece → Prop
  | .text _ :: _ => False
  | _ => True

/-- A text that is not empty becomes one piece in front of pieces that begin with a marker. -/
theorem prependText_of_markerFirst {cs : List Char} {ps : List Piece} (hcs : cs ≠ [])
    (hps : MarkerFirst ps) : prependText cs ps = .text cs :: ps := by
  induction cs with
  | nil => exact False.elim (hcs rfl)
  | cons c cs ih =>
    cases cs with
    | nil =>
      cases ps with
      | nil => rfl
      | cons p ps =>
        cases p with
        | marker m => rfl
        | text t => exact False.elim hps
    | cons d ds =>
      have hds := ih (List.cons_ne_nil d ds)
      show consText c (prependText (d :: ds) ps) = _
      rw [hds]
      rfl

/-! ### Written markers -/

/-- The text of a marker whose arguments hold no `<` is clear behind its first character. -/
theorem clear_tail_text {m : Marker} (h : m.body.count '<' = 3) {tail : List Char}
    (htail : m.text = '<' :: tail) : Clear tail := by
  intro hin
  have hle := hin.count_le '<'
  have htext : m.text.count '<' = 3 := by
    rw [text, List.count_append, h]
    rfl
  rw [htail, List.count_cons_self] at htext
  have h3 : opening.count '<' = 3 := by decide
  omega

/-- A marker that `r` does not read at its front is skipped, if its arguments hold no `<`. -/
theorem skips_text {r : Reader} {m : Marker} {rest : List Char} (hcount : m.body.count '<' = 3)
    (hfront : r.read (m.text ++ rest) = none) : r.Skips m.text rest := by
  obtain ⟨tail, htail⟩ : ∃ tail, m.text = '<' :: (tail ++ ['>']) := by
    obtain ⟨x, hx⟩ := opening_prefix_text m
    have hend : m.text = m.body ++ ['>', '>'] ++ ['>'] := by simp [text, closing]
    rw [hend] at hx
    cases hb : m.body ++ ['>', '>'] with
    | nil => simp at hb
    | cons c cs =>
      rw [hb] at hx
      have hc : '<' = c := (List.cons.inj hx).1
      exact ⟨cs, by rw [hend, hb, hc]; rfl⟩
  have hclear := clear_tail_text hcount htail
  rw [htail] at hfront ⊢
  exact ⟨hfront, hclear.skips_of_end (by decide) r rest⟩

/-- What follows a lead in a text that begins with it. -/
theorem after?_append_self (lead rest : List Char) :
    Text.after? lead (lead ++ rest) = some rest := Text.after?_eq_some_iff.mpr rfl

/-- The reader of turns reads role and history markers. -/
@[simp] theorem read_turnReader (cs : List Char) : turnReader.read cs = readTurn cs := rfl

/-- The reader of parts reads media and section markers. -/
@[simp] theorem read_partReader (cs : List Char) : partReader.read cs = readPart cs := rfl

/-- A role marker is read with its name. -/
theorem readTurn_role {name rest : List Char} (hne : name ≠ [])
    (hlower : ∀ c ∈ name, isLower c = true) :
    turnReader.read ((role name).text ++ rest) = some (.role name, rest) := by
  have htext : (role name).text ++ rest = roleLead ++ (name ++ (closing ++ rest)) := by
    simp [text, body]
  have htake : (name ++ (closing ++ rest)).takeWhile isLower = name := by
    rw [List.takeWhile_append_of_pos hlower]
    simp [closing, show isLower '>' = false by decide]
  have hdrop : (name ++ (closing ++ rest)).dropWhile isLower = closing ++ rest := by
    rw [List.dropWhile_append_of_pos hlower]
    simp [closing, show isLower '>' = false by decide]
  have hempty : name.isEmpty = false := by simpa using hne
  rw [read_turnReader, htext, readTurn, after?_append_self]
  simp only [htake, hdrop, hempty, after?_append_self]
  rfl

/-- A history marker is read. -/
theorem readTurn_history (rest : List Char) :
    turnReader.read (history.text ++ rest) = some (.history, rest) := by
  have hrole : Text.after? roleLead (history.text ++ rest) = none := by
    simp [roleLead, opening, text, body, historyLead, Text.after?]
  rw [read_turnReader, readTurn, hrole]
  simp only
  rw [show history.text = historyLead ++ closing from rfl, after?_append_self]
  rfl

section Closing

variable {arguments : List Char}

/-- No closing begins where arguments stand that hold none and with which none begins, whatever
follows them. -/
theorem closing_not_first (hne : arguments ≠ []) (hin : ¬ closing <:+: arguments)
    (hlast : arguments.getLast? ≠ some '>') (rest : List Char) :
    ¬ closing <+: arguments ++ rest := by
  intro h
  rcases List.prefix_or_prefix_of_prefix h (List.prefix_append arguments rest) with hp | hp
  · exact hin hp.isInfix
  · have hmem : arguments.getLast hne ∈ closing := hp.subset (List.getLast_mem hne)
    have heq : arguments.getLast hne = '>' := by simpa [closing] using hmem
    rw [List.getLast?_eq_some_getLast hne, heq] at hlast
    exact hlast rfl

/-- The closing behind such arguments is the only one. -/
theorem eq_nil_of_closing (hin : ¬ closing <:+: arguments) (hlast : arguments.getLast? ≠ some '>')
    {before after : List Char} (h : arguments ++ closing = before ++ (closing ++ after)) :
    after = [] := by
  rcases List.append_eq_append_iff.mp h with ⟨x, -, hx⟩ | ⟨x, rfl, hx⟩
  · have hlength := congrArg List.length hx
    simp only [List.length_append] at hlength
    exact List.eq_nil_of_length_eq_zero (by omega)
  · by_cases hnil : x = []
    · subst hnil
      exact List.append_right_eq_self.mp hx
    · refine absurd ?_ (closing_not_first hnil (fun hx ↦ hin (hx.trans ?_)) ?_ closing)
      · exact ⟨after, hx⟩
      · exact (List.suffix_append before x).isInfix
      · intro hend
        rw [List.getLast?_append, hend] at hlast
        exact hlast rfl

/-- The arguments are read up to their end when they are on one line, and no closing stands in them
or begins with them. -/
theorem untilClosing_eq_iff {rest : List Char} :
    untilClosing (arguments ++ (closing ++ rest)) = some (arguments, rest) ↔
      '\n' ∉ arguments ∧ ¬ closing <:+: arguments ∧ arguments.getLast? ≠ some '>' := by
  induction arguments with
  | nil => simp [closing, untilClosing, Text.after?]
  | cons c cs ih =>
    rw [List.cons_append, untilClosing]
    split
    · next after hafter =>
      refine iff_of_false (by simp) ?_
      rintro ⟨-, hin, hlast⟩
      refine closing_not_first (List.cons_ne_nil c cs) hin hlast (closing ++ rest) ?_
      exact ⟨after, (Text.after?_eq_some_iff.mp hafter).symm⟩
    · next hnone =>
      have hfront : ¬ closing <+: c :: (cs ++ (closing ++ rest)) := by
        rintro ⟨after, hafter⟩
        rw [Text.after?_eq_some_iff.mpr hafter.symm] at hnone
        cases hnone
      split
      · next hbreak => simp [hbreak]
      · next hbreak =>
        have hin : closing <:+: c :: cs ↔ closing <:+: cs := by
          rw [List.infix_cons_iff, or_iff_right]
          intro hp
          exact hfront (hp.trans (List.prefix_append (c :: cs) _))
        have hlast : (c :: cs).getLast? = some '>' ↔ cs.getLast? = some '>' := by
          cases cs with
          | nil =>
            refine iff_of_false ?_ (by simp)
            rintro hc
            cases hc
            exact hfront ⟨'>' :: rest, rfl⟩
          | cons d ds => rw [List.getLast?_cons_cons]
        rw [hin, Ne, hlast, ← Ne, List.mem_cons, not_or, and_assoc, ← ih]
        simp [Option.map_eq_some_iff, Ne.symm hbreak]

end Closing

/-- The text up to a closing on the same line. -/
theorem untilClosing_append {cs rest : List Char} (hgt : '>' ∉ cs) (hlf : '\n' ∉ cs) :
    untilClosing (cs ++ (closing ++ rest)) = some (cs, rest) :=
  untilClosing_eq_iff.mpr
    ⟨hlf, fun hin ↦ hgt (hin.subset (by decide)), fun hlast ↦ hgt (List.mem_of_getLast? hlast)⟩

/-- Where a media marker stands its arguments are read up to a closing. -/
theorem readPart_media_eq (arguments rest : List Char) :
    partReader.read ((media arguments).text ++ rest) =
      (untilClosing (arguments ++ (closing ++ rest))).map fun p ↦ (.media p.1, p.2) := by
  have htext : (media arguments).text ++ rest = mediaLead ++ (arguments ++ (closing ++ rest)) := by
    simp [text, body]
  rw [read_partReader, htext, readPart, after?_append_self]

/-- Where a section marker stands its arguments are read up to a closing. -/
theorem readPart_placeholder_eq (arguments rest : List Char) :
    partReader.read ((placeholder arguments).text ++ rest) =
      (untilClosing (arguments ++ (closing ++ rest))).map fun p ↦ (.placeholder p.1, p.2) := by
  have htext : (placeholder arguments).text ++ rest =
      placeholderLead ++ (arguments ++ (closing ++ rest)) := by
    simp [text, body]
  have hmedia : Text.after? mediaLead (placeholderLead ++ (arguments ++ (closing ++ rest))) =
      none := by
    simp [mediaLead, placeholderLead, opening, Text.after?]
  rw [read_partReader, htext, readPart, hmedia]
  simp only
  rw [after?_append_self]

/-- A media marker is read with its arguments. -/
theorem readPart_media {arguments rest : List Char} (hgt : '>' ∉ arguments)
    (hlf : '\n' ∉ arguments) :
    partReader.read ((media arguments).text ++ rest) = some (.media arguments, rest) := by
  rw [readPart_media_eq, untilClosing_append hgt hlf]
  rfl

/-- A section marker is read with its arguments. -/
theorem readPart_placeholder {arguments rest : List Char} (hgt : '>' ∉ arguments)
    (hlf : '\n' ∉ arguments) :
    partReader.read ((placeholder arguments).text ++ rest) =
      some (.placeholder arguments, rest) := by
  rw [readPart_placeholder_eq, untilClosing_append hgt hlf]
  rfl

/-- Media markers are none of the markers that begin turns. -/
theorem readTurn_media (arguments rest : List Char) :
    turnReader.read ((media arguments).text ++ rest) = none := by
  simp [readTurn, text, body, roleLead, historyLead, mediaLead, opening, Text.after?]

/-- Section markers are none of the markers that begin turns. -/
theorem readTurn_placeholder (arguments rest : List Char) :
    turnReader.read ((placeholder arguments).text ++ rest) = none := by
  simp [readTurn, text, body, roleLead, historyLead, placeholderLead, opening, Text.after?]

end PromptDoc.Marker
