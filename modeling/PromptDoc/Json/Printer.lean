import PromptDoc.Decimal.Layout
import PromptDoc.Json.Value

/-!
# JSON texts of values

The compact form has no spaces. The indented form puts every item and entry on a line of its own
and leaves empty arrays and objects closed.
-/

namespace PromptDoc.Json

/-- Numbers are positional for exponents from -5 to 15; other exponents show their sign. -/
def numberLayout : Decimal.Layout where
  positional lead := -5 ≤ lead && lead ≤ 15
  exponentSign := "+"

/-- The text of a number. A number that is not finite has no text of its own and becomes `null`. -/
def Number.text : Number → String
  | .int n => toString n
  | .float bits =>
    match Decimal.Binary64.ofBits bits with
    | .finite negative d => (if negative then "-" else "") ++ numberLayout.text d
    | _ => "null"

/-- A character inside a string: quotes, backslashes and control characters are escaped. -/
def escapeChar (c : Char) : String :=
  match c with
  | '"' => "\\\""
  | '\\' => "\\\\"
  | '\n' => "\\n"
  | '\r' => "\\r"
  | '\t' => "\\t"
  | '\x08' => "\\b"
  | '\x0c' => "\\f"
  | c =>
    if c.toNat < 0x20 then
      "\\u00" ++ String.ofList [Nat.digitChar (c.toNat / 16), Nat.digitChar (c.toNat % 16)]
    else c.toString

/-- A string with its quotes. -/
def quote (s : String) : String :=
  "\"" ++ s.toList.foldl (fun acc c ↦ acc ++ escapeChar c) "" ++ "\""

namespace Value

mutual

/-- The compact text of a value. -/
def compact : Value → String
  | .null => "null"
  | .bool true => "true"
  | .bool false => "false"
  | .number n => n.text
  | .string s => quote s
  | .array items => "[" ++ compactItems items ++ "]"
  | .object fields => "\x7b" ++ compactFields fields ++ "\x7d"

/-- The items of an array, separated by commas. -/
def compactItems : List Value → String
  | [] => ""
  | [v] => v.compact
  | v :: vs => v.compact ++ "," ++ compactItems vs

/-- The entries of an object, separated by commas. -/
def compactFields : List (String × Value) → String
  | [] => ""
  | [(k, v)] => quote k ++ ":" ++ v.compact
  | (k, v) :: fs => quote k ++ ":" ++ v.compact ++ "," ++ compactFields fs

end

/-- A new line and `depth` steps of `width` spaces. -/
def newLine (width depth : Nat) : String :=
  "\n" ++ String.ofList (List.replicate (width * depth) ' ')

mutual

/-- The indented text of a value at a depth, with steps of `width` spaces. -/
def indentedAt (width depth : Nat) : Value → String
  | .array [] => "[]"
  | .array items =>
    "[" ++ indentedItems width (depth + 1) items ++ newLine width depth ++ "]"
  | .object [] => "\x7b\x7d"
  | .object fields =>
    "\x7b" ++ indentedFields width (depth + 1) fields ++ newLine width depth ++ "\x7d"
  | .null => "null"
  | .bool true => "true"
  | .bool false => "false"
  | .number n => n.text
  | .string s => quote s

/-- The items of an array, each on its line. -/
def indentedItems (width depth : Nat) : List Value → String
  | [] => ""
  | [v] => newLine width depth ++ indentedAt width depth v
  | v :: vs =>
    newLine width depth ++ indentedAt width depth v ++ "," ++ indentedItems width depth vs

/-- The entries of an object, each on its line. -/
def indentedFields (width depth : Nat) : List (String × Value) → String
  | [] => ""
  | [(k, v)] => newLine width depth ++ quote k ++ ": " ++ indentedAt width depth v
  | (k, v) :: fs =>
    newLine width depth ++ quote k ++ ": " ++ indentedAt width depth v ++ "," ++
      indentedFields width depth fs

end

/-- The indented text of a value, with steps of `width` spaces. -/
def indented (width : Nat) (v : Value) : String := indentedAt width 0 v

end Value

end PromptDoc.Json
