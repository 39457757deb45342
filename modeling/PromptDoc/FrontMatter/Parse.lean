import PromptDoc.FrontMatter.Routing
import PromptDoc.FrontMatter.Split
import PromptDoc.Prompt

/-!
# Parsing documents

A document is front matter and a template. Parsing never fails: where the front matter does not
decode to a mapping the whole document is the template. How front matter is decoded is a parameter.
-/

namespace PromptDoc.FrontMatter

open Json

/-- Decodes the text of front matter; `none` if it is malformed. -/
abbrev Decoder := String → Option Value

/-- White space that a normalised text may hold. -/
def isPlainSpace (c : Char) : Bool := Text.isBreak c || c == ' '

/-- White space that is trimmed off a normalised text. -/
def isTrimmedSpace (c : Char) : Bool := Text.isBlank c && !Text.isBreak c

/-- The text without white space other than line breaks and plain spaces, and without spaces at its
two ends. Specification §3 (ParsedPrompt). -/
def normalise (cs : List Char) : List Char :=
  Text.trimBy isTrimmedSpace (cs.filter fun c ↦ !Text.isBlank c || isPlainSpace c)

/-- `normalise` on strings. -/
def normalised (s : String) : String := String.ofList (normalise s.toList)

/-- Normalising keeps every character that is not white space, in order. -/
theorem filter_normalise (cs : List Char) :
    (normalise cs).filter (fun c ↦ !Text.isBlank c) = cs.filter (fun c ↦ !Text.isBlank c) := by
  have hclass : (fun c ↦ !Text.isBlank c) = fun c ↦ !Text.isBlank c && !isTrimmedSpace c := by
    funext c
    cases hc : Text.isBlank c <;> simp [isTrimmedSpace, hc]
  rw [hclass, ← List.filter_filter, ← List.filter_filter, normalise, Text.filter_trimBy]
  simp only [List.filter_filter]
  congr 1
  funext c
  cases hc : Text.isBlank c <;> simp [isTrimmedSpace, hc]

/-- The mapping that front matter decodes to; nothing at all is the empty mapping. -/
def mapping? (decode : Decoder) (inner : List Char) : Option Fields :=
  match decode (String.ofList inner) with
  | some .null => some ∅
  | some v => v.fields?
  | none => none

/-- A prompt that is all template. -/
def plain (cs : List Char) : ParsedPrompt := ⟨{}, String.ofList (normalise cs)⟩

/-- Parse a document. Specification §4.2, `parse(source)`. -/
def parse (decode : Decoder) (source : String) : ParsedPrompt :=
  let cs := source.toList
  match split cs with
  | .present inner body =>
    match mapping? decode inner with
    | some raw => ⟨metadata raw, String.ofList (Text.trim body)⟩
    | none => plain cs
  | .empty body => plain body
  | .absent => plain cs

end PromptDoc.FrontMatter
