import PromptDoc.Template.Value
import PromptDoc.Text.Uppercase

/-!
# Template filters

The filters of expressions, each a function of the value before the bar and its arguments.
-/

namespace PromptDoc.Template.Filter

open Value

/-- An argument that may be missing, undefined or null. -/
def given? : Option Value → Option Value
  | some .undefined | some .null | none => none
  | some v => some v

/-- The text of a value in upper case. -/
def upper (v : Value) : List Value → Option Value
  | [] => some (.string (Text.uppercase v.text))
  | _ => none

/-- The number of items or characters. -/
def length (v : Value) : List Value → Option Value
  | [] => v.length?.map fun (n : Nat) ↦ .int n
  | _ => none

/-- The value, or another one where it is undefined; if asked for, also where it is not true. -/
def default (v : Value) (arguments : List Value) : Option Value := do
  let lax ← match arguments with
    | [] | [_] => some false
    | [_, .bool b] => some b
    | [_, .undefined] | [_, .null] => some false
    | _ => none
  let other := (given? arguments.head?).getD (.string "")
  match v with
  | .undefined => some other
  | v => some (if lax && !v.isTrue then other else v)

/-- Put a text behind those before, with a joint between them unless nothing is there yet. -/
def joinOne (joint acc : String) (v : Value) : String :=
  if acc.isEmpty then v.text else acc ++ joint ++ v.text

/-- The texts of the items with a joint between them. -/
def join (v : Value) (arguments : List Value) : Option Value := do
  let joint ← match arguments with
    | [] => some ""
    | [a] => some (((given? (some a)).map Value.text).getD "")
    | _ => none
  let items ← v.items?
  some (.string (items.foldl (joinOne joint) ""))

/-- The filter of a name. -/
def ofName? : String → Option (Value → List Value → Option Value)
  | "upper" => some upper
  | "length" => some length
  | "count" => some length
  | "default" => some default
  | "d" => some default
  | "join" => some join
  | _ => none

end PromptDoc.Template.Filter
