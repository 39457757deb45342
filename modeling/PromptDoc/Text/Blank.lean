/-!
# Blank characters

The characters with the Unicode property `White_Space`, the two characters that break lines, and
trimming. Texts are lists of characters here; `trimmed` is the same on strings. Main statements:
trimming only drops blank characters (`filter_trim`), and a trimmed text has none at its ends
(`not_of_mem_head?_trimBy`, `not_of_mem_getLast?_trimBy`).
-/

namespace PromptDoc.Text

/-- The code points with the property `White_Space`, as inclusive ranges. -/
def blankRanges : List (Nat × Nat) :=
  [(0x09, 0x0D), (0x20, 0x20), (0x85, 0x85), (0xA0, 0xA0), (0x1680, 0x1680), (0x2000, 0x200A),
    (0x2028, 0x2029), (0x202F, 0x202F), (0x205F, 0x205F), (0x3000, 0x3000)]

/-- Whether a character is white space. -/
def isBlank (c : Char) : Bool :=
  blankRanges.any fun r ↦ r.1 ≤ c.toNat && c.toNat ≤ r.2

/-- Whether a character is a line feed or a carriage return. -/
def isBreak (c : Char) : Bool := c == '\n' || c == '\r'

/-- Whether a text holds nothing but white space. -/
def allBlank (cs : List Char) : Bool := cs.all isBlank

/-- The text without the characters of class `p` at its start. -/
def trimStartBy (p : Char → Bool) (cs : List Char) : List Char := cs.dropWhile p

/-- The text without the characters of class `p` at its end. -/
def trimEndBy (p : Char → Bool) (cs : List Char) : List Char :=
  (cs.reverse.dropWhile p).reverse

/-- The text without the characters of class `p` at its two ends. -/
def trimBy (p : Char → Bool) (cs : List Char) : List Char := trimEndBy p (trimStartBy p cs)

/-- The text without white space at its two ends. -/
def trim (cs : List Char) : List Char := trimBy isBlank cs

/-- `trim` on strings. -/
def trimmed (s : String) : String := String.ofList (trim s.toList)

/-- Whether a string holds nothing but white space. -/
def isBlankText (s : String) : Bool := allBlank s.toList

/-- Every character that core calls white space is blank. -/
theorem isBlank_of_isWhitespace {c : Char} (h : c.isWhitespace = true) : isBlank c = true := by
  simp only [Char.isWhitespace, Bool.or_eq_true, decide_eq_true_eq] at h
  rcases h with ((rfl | rfl) | rfl) | rfl <;> decide

/-- A line break is blank. -/
theorem isBlank_of_isBreak {c : Char} (h : isBreak c = true) : isBlank c = true := by
  simp only [isBreak, Bool.or_eq_true, beq_iff_eq] at h
  rcases h with rfl | rfl <;> decide

private theorem filter_dropWhile_not (p : Char → Bool) (cs : List Char) :
    (cs.dropWhile p).filter (fun c ↦ !p c) = cs.filter (fun c ↦ !p c) := by
  induction cs with
  | nil => rfl
  | cons c cs ih => cases hc : p c <;> simp [hc, ih]

/-- Trimming keeps every character outside the class, in order. -/
theorem filter_trimBy (p : Char → Bool) (cs : List Char) :
    (trimBy p cs).filter (fun c ↦ !p c) = cs.filter (fun c ↦ !p c) := by
  rw [trimBy, trimEndBy, List.filter_reverse, filter_dropWhile_not, ← List.filter_reverse,
    List.reverse_reverse, trimStartBy, filter_dropWhile_not]

/-- Trimming keeps every character that is not blank, in order. -/
theorem filter_trim (cs : List Char) :
    (trim cs).filter (fun c ↦ !isBlank c) = cs.filter (fun c ↦ !isBlank c) :=
  filter_trimBy isBlank cs

/-- A blank text is trimmed to nothing. -/
theorem trim_eq_nil_of_allBlank {cs : List Char} (h : allBlank cs = true) : trim cs = [] := by
  have hdrop : cs.dropWhile isBlank = [] := by
    induction cs with
    | nil => rfl
    | cons c cs ih =>
      obtain ⟨hc, hcs⟩ : isBlank c = true ∧ allBlank cs = true := by simpa [allBlank] using h
      simp [hc, ih hcs]
  simp [trim, trimBy, trimEndBy, trimStartBy, hdrop]

/-- White space in front of a text is trimmed off. -/
theorem trim_append_of_allBlank {blank : List Char} (h : allBlank blank = true) (cs : List Char) :
    trim (blank ++ cs) = trim cs := by
  rw [allBlank, List.all_eq_true] at h
  rw [trim, trim, trimBy, trimBy, trimStartBy, trimStartBy, List.dropWhile_append_of_pos h]

/-! ### The ends of a trimmed text -/

section Ends

variable {p : Char → Bool} {cs : List Char} {c : Char}

private theorem not_of_mem_head?_dropWhile (h : c ∈ (cs.dropWhile p).head?) : p c = false := by
  have hfirst := List.head?_dropWhile_not p cs
  rw [Option.mem_def.mp h] at hfirst
  exact hfirst

private theorem dropWhile_eq_self (h : ∀ c ∈ cs.head?, p c = false) : cs.dropWhile p = cs := by
  cases cs with
  | nil => rfl
  | cons c cs => simp [h c rfl]

private theorem prefix_trimEndBy (p : Char → Bool) (cs : List Char) : trimEndBy p cs <+: cs := by
  have hsuffix := List.dropWhile_suffix (l := cs.reverse) p
  rwa [← List.reverse_prefix, List.reverse_reverse] at hsuffix

/-- A trimmed text is part of the text. -/
theorem trimBy_sublist (p : Char → Bool) (cs : List Char) : (trimBy p cs).Sublist cs :=
  (prefix_trimEndBy p _).sublist.trans (List.dropWhile_sublist p)

/-- A trimmed text does not begin with a character of the class. -/
theorem not_of_mem_head?_trimBy (h : c ∈ (trimBy p cs).head?) : p c = false := by
  obtain ⟨rest, hrest⟩ := prefix_trimEndBy p (trimStartBy p cs)
  obtain ⟨more, hmore⟩ := List.head?_eq_some_iff.mp h
  have hstart : c ∈ (cs.dropWhile p).head? := by
    rw [← trimStartBy, ← hrest, ← trimBy, hmore]
    rfl
  exact not_of_mem_head?_dropWhile hstart

/-- A trimmed text does not end with a character of the class. -/
theorem not_of_mem_getLast?_trimBy (h : c ∈ (trimBy p cs).getLast?) : p c = false := by
  rw [trimBy, trimEndBy, List.getLast?_reverse] at h
  exact not_of_mem_head?_dropWhile h

/-- A text that neither begins nor ends with a character of the class stays as it is. -/
theorem trimBy_eq_self (hhead : ∀ c ∈ cs.head?, p c = false)
    (hlast : ∀ c ∈ cs.getLast?, p c = false) : trimBy p cs = cs := by
  rw [← List.head?_reverse] at hlast
  rw [trimBy, trimStartBy, dropWhile_eq_self hhead, trimEndBy, dropWhile_eq_self hlast,
    List.reverse_reverse]

end Ends

end PromptDoc.Text
