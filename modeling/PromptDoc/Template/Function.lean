import PromptDoc.Engine
import PromptDoc.Marker.Basic
import PromptDoc.Template.Value

/-!
# Template functions

The functions that templates call: the built-in helpers, which write markers and JSON, and the
helpers of the caller, which are given their arguments as JSON. Named arguments come last, as one
map.
-/

namespace PromptDoc.Template

/-- The arguments of a call. -/
structure Arguments where
  values : List Value
  /-- The named arguments, the last of a name first. -/
  named : List (String × Value)

namespace Arguments

/-- The names that are given. -/
def names (a : Arguments) : List String := a.named.map Prod.fst

/-- The argument of a name. -/
def get? (a : Arguments) (name : String) : Option Value :=
  (a.named.find? fun e ↦ e.1 = name).map Prod.snd

/-- The map of the named arguments. -/
def namedMap (a : Arguments) : Value :=
  .ofEntries (a.named.reverse.map fun e ↦ (.string e.1, e.2))

/-- All arguments in a row, the named ones last as one map. -/
def all (a : Arguments) : List Value :=
  if a.named.isEmpty then a.values else a.values ++ [a.namedMap]

end Arguments

/-- A function of a template. -/
inductive Function where
  | builtin (builtin : Builtin)
  | helper (helper : Helper)

/-- The one argument of a function of one text, whatever its kind. -/
def oneText (a : Arguments) : Option String :=
  match a.values, a.named with
  | [v], [] => some v.text
  | _, _ => none

/-- The text of an argument that may be missing or none. -/
def optionalText : Option Value → Option String
  | none | some .undefined | some .null => none
  | some v => some v.text

/-- How far JSON is indented; not at all if nothing is said. `none` is an error. -/
def indentation? : Option Value → Option (Option Nat)
  | none | some .undefined | some .null => some none
  | some v => do
    let n ← v.int?
    guard (0 ≤ n ∧ n < Decimal.pow2 64)
    some (some n.toNat)

/-- Write a value as JSON. Named arguments alone are the value. -/
def writeJson (a : Arguments) : Option String := do
  let (v, named) ← match a.values with
    | [] => if a.named.isEmpty then none else some (a.namedMap, [])
    | [v] => some (v, a.named)
    | _ => none
  guard (named.all fun e ↦ e.1 = "indent")
  let indent ← indentation? (named.head?.map Prod.snd)
  let v ← v.toJson?
  some (match indent with
    | none => v.compact
    | some width => v.indented width)

/-- What a built-in helper writes. -/
def writeBuiltin (b : Builtin) (a : Arguments) : Option String :=
  match b with
  | .role => (oneText a).map fun s ↦ (Marker.ofRole s).toString
  | .placeholder => (oneText a).map fun s ↦ (Marker.ofSection s).toString
  | .history => do
    guard (a.values.isEmpty && a.named.isEmpty)
    some Marker.history.toString
  | .media => do
    guard a.values.isEmpty
    guard (a.names.all fun k ↦ k = "url" || k = "contentType")
    let url ← a.get? "url"
    some (Marker.ofMedia url.text (optionalText (a.get? "contentType"))).toString
  | .json => writeJson a

/-- Call a function. -/
def Function.call (f : Function) (a : Arguments) : Option Value :=
  match f with
  | .builtin b => (writeBuiltin b a).map .string
  | .helper run => do
    let arguments ← a.all.mapM Value.toJson?
    match run arguments with
    | .ok text => some (.string text)
    | .error _ => none

end PromptDoc.Template
