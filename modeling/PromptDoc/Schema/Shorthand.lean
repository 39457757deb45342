import PromptDoc.Schema.Basic
import PromptDoc.Map.Sorted
import PromptDoc.Text.Blank
import PromptDoc.Text.Split

/-!
# The written shorthand for schemas

The texts of the shorthand: type names with a description behind a comma, and property keys such as
`age?`, `tags(array, list of tags)` or the wildcard `(*)`.
-/

namespace PromptDoc.Shorthand

/-- A type name with the description behind its first comma. Without a comma the whole text is the
name, white space included. -/
structure Described where
  name : String
  description : Option String
  deriving DecidableEq

/-- Read a described name. A blank description counts as none. Specification §4.1 (a). -/
def Described.ofText (s : String) : Described :=
  match Text.cutFirst? ',' s.toList with
  | some (name, description) =>
    let kept := Text.trim description
    ⟨String.ofList (Text.trim name), if kept.isEmpty then none else some (String.ofList kept)⟩
  | none => ⟨s, none⟩

/-- A key of a shorthand mapping. -/
inductive Key where
  /-- `(*)`: every property that is not named. -/
  | wildcard
  /-- A property, whether it may be absent, and the annotation in its parentheses. -/
  | property (name : String) (optional : Bool) (parenthetical : Option Described)
  deriving DecidableEq

/-- The key of all properties that are not named. -/
def wildcardText : String := "(*)"

/-- A property name, less one `?` at its end; the `?` says that the property may be absent. -/
def propertyName (cs : List Char) : String × Bool :=
  (String.ofList (Text.stripEnd '?' cs), cs.getLast? = some '?')

/-- Read a key. The annotation stands behind the first `(`, less one `)` at its end. Specification
§4.1 (b). -/
def Key.ofText (s : String) : Key :=
  if s = wildcardText then .wildcard
  else match Text.cutFirst? '(' s.toList with
    | some (name, rest) =>
      let (name, optional) := propertyName name
      .property name optional
        (some (Described.ofText (String.ofList (Text.stripEnd ')' rest))))
    | none =>
      let (name, optional) := propertyName s.toList
      .property name optional none

end PromptDoc.Shorthand
