import PromptDoc.Text.Blank
import PromptDoc.Text.Split

/-!
# References to partials

The partials that a text includes by a quoted name, found without reading the text as a template: a
tag's opening, the word `include`, white space, and a name between quotes of either kind.
-/

namespace PromptDoc.Template

/-- Whether a character quotes a name. -/
def isQuote (c : Char) : Bool := c == '"' || c == '\''

/-- The word that includes a partial. -/
def includeWord : List Char := ['i', 'n', 'c', 'l', 'u', 'd', 'e']

/-- The text behind leading white space. -/
def skipBlank (cs : List Char) : List Char := cs.dropWhile Text.isBlank

/-- The text behind a control mark at the front of a tag. -/
def skipDash : List Char → List Char
  | '-' :: cs => cs
  | cs => cs

/-- Read a quoted name that is not empty, and the text behind it. -/
def quotedName? : List Char → Option (List Char × List Char)
  | [] => none
  | c :: cs =>
    if isQuote c then
      let name := cs.takeWhile fun d ↦ !isQuote d
      match cs.dropWhile fun d ↦ !isQuote d with
      | [] => none
      | _ :: rest => if name.isEmpty then none else some (name, rest)
    else none

/-- Read a reference at the front of a text, and the text behind it. -/
def reference? (cs : List Char) : Option (List Char × List Char) := do
  let cs ← Text.after? ['\x7b', '%'] cs
  let cs ← Text.after? includeWord (skipBlank (skipDash cs))
  guard (cs.head?.any Text.isBlank)
  quotedName? (skipBlank cs)

/-- The names of all references in a text. -/
def referencesIn : Nat → List Char → List (List Char)
  | 0, _ => []
  | fuel + 1, cs =>
    match reference? cs, cs with
    | some (name, rest), _ => Text.trim name :: referencesIn fuel rest
    | none, _ :: rest => referencesIn fuel rest
    | none, [] => []

/-- The names of the partials that a text includes, in order. -/
def references (source : String) : List String :=
  (referencesIn (source.length + 1) source.toList).map String.ofList

end PromptDoc.Template
