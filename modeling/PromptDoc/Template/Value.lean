import PromptDoc.Decimal.Layout
import PromptDoc.Json.Value
import PromptDoc.Json.Printer
import PromptDoc.Text.Printable

/-!
# Template values

The values that templates compute with: those of JSON, the undefined value, and functions. Maps may
have keys of any kind and are kept in ascending order of their keys.
-/

namespace PromptDoc.Template

/-- A value of a template. -/
inductive Value where
  | undefined
  | null
  | bool (value : Bool)
  | int (value : Int)
  | float (bits : UInt64)
  | string (value : String)
  | list (items : List Value)
  | map (entries : List (Value × Value))
  | function (name : String)
  deriving Inhabited

namespace Value

/-! ## Numbers -/

/-- The number of the 64-bit format nearest to a whole number. -/
def floatOfInt (n : Int) : Float := Float.ofBits (Decimal.nearest (n < 0) n.natAbs 0)

/-- The whole number that a number of the format is, if it is one. -/
def intOfBits? (bits : UInt64) : Option Int :=
  match Decimal.Binary64.ofBits bits with
  | .finite negative d =>
    let magnitude : Option Nat :=
      if 0 ≤ d.exponent then some (d.mantissa * Decimal.pow2 d.exponent.toNat)
      else
        let unit := Decimal.pow2 (-d.exponent).toNat
        if d.mantissa % unit = 0 then some (d.mantissa / unit) else none
    magnitude.map fun (m : Nat) ↦ if negative then -(m : Int) else m
  | _ => none

/-- The whole number that a value counts as: booleans are 0 and 1. -/
def int? : Value → Option Int
  | .bool b => some (if b then 1 else 0)
  | .int n => some n
  | .float bits => (intOfBits? bits).filter fun n ↦
      -(Decimal.pow2 63 : Int) ≤ n ∧ n < Decimal.pow2 63
  | _ => none

/-- The number that a value counts as. -/
def float? : Value → Option Float
  | .bool b => some (if b then 1.0 else 0.0)
  | .int n => some (floatOfInt n)
  | .float bits => some (Float.ofBits bits)
  | _ => none

/-! ## Order and equality -/

/-- The place of a value's kind in the order of kinds. -/
def rank : Value → Nat
  | .undefined => 0
  | .null => 1
  | .bool _ => 2
  | .int _ | .float _ => 3
  | .string _ => 4
  | .list _ => 5
  | .map _ => 6
  | .function _ => 7

/-- A key for the total order of the numbers of the format. -/
def floatKey (bits : UInt64) : Int :=
  if bits.toNat < Decimal.pow2 63 then bits.toNat
  else -(bits.toNat - Decimal.pow2 63 : Int) - 1

mutual

/-- The order of values: by kind, and within a kind by value. -/
def order : Value → Value → Ordering
  | .bool a, .bool b => compare a b
  | .int a, .int b => compare a b
  | .float a, .float b => compare (floatKey a) (floatKey b)
  | .int a, .float b => compare (floatKey (floatOfInt a).toBits) (floatKey b)
  | .float a, .int b => compare (floatKey a) (floatKey (floatOfInt b).toBits)
  | .string a, .string b => compare a b
  | .list as, .list bs => orderItems as bs
  | .map as, .map bs => orderEntries as bs
  | .function a, .function b => compare a b
  | a, b => compare a.rank b.rank

/-- The order of lists, item by item. -/
def orderItems : List Value → List Value → Ordering
  | [], [] => .eq
  | [], _ :: _ => .lt
  | _ :: _, [] => .gt
  | a :: as, b :: bs => (order a b).then (orderItems as bs)

/-- The order of entry lists, entry by entry. -/
def orderEntries : List (Value × Value) → List (Value × Value) → Ordering
  | [], [] => .eq
  | [], _ :: _ => .lt
  | _ :: _, [] => .gt
  | (k, a) :: as, (l, b) :: bs => (order k l).then ((order a b).then (orderEntries as bs))

end

mutual

/-- Whether values are equal. Numbers and booleans are compared as numbers. -/
def isEqual : Value → Value → Bool
  | .undefined, .undefined => true
  | .null, .null => true
  | .string a, .string b => a == b
  | .float a, .float b => Float.ofBits a == Float.ofBits b
  | .float a, .int b => intOfBits? a = some b
  | .int a, .float b => intOfBits? b = some a
  | .float a, .bool b => intOfBits? a = some (if b then 1 else 0)
  | .bool a, .float b => intOfBits? b = some (if a then 1 else 0)
  | .list as, .list bs => equalItems as bs
  | .map as, .map bs => equalEntries as bs
  | .function a, .function b => a == b
  | .int a, .int b => a == b
  | .bool a, .bool b => a == b
  | .int a, .bool b => a == if b then 1 else 0
  | .bool a, .int b => b == if a then 1 else 0
  | _, _ => false

/-- Whether lists are equal, item by item. -/
def equalItems : List Value → List Value → Bool
  | [], [] => true
  | a :: as, b :: bs => isEqual a b && equalItems as bs
  | _, _ => false

/-- Whether entry lists are equal, entry by entry. -/
def equalEntries : List (Value × Value) → List (Value × Value) → Bool
  | [], [] => true
  | (k, a) :: as, (l, b) :: bs => isEqual k l && isEqual a b && equalEntries as bs
  | _, _ => false

end

/-- Write a key in an ascending entry list. -/
def place (k v : Value) : List (Value × Value) → List (Value × Value)
  | [] => [(k, v)]
  | e :: es =>
    match order k e.1 with
    | .lt => (k, v) :: e :: es
    | .eq => (e.1, v) :: es
    | .gt => e :: place k v es

/-- The map of some entries, of which the last one under a key counts. -/
def ofEntries (es : List (Value × Value)) : Value :=
  .map (es.foldl (fun acc e ↦ place e.1 e.2 acc) [])

/-- The value under a key of an entry list. -/
def find? (k : Value) (es : List (Value × Value)) : Option Value :=
  (es.find? fun e ↦ order k e.1 = .eq).map Prod.snd

/-! ## Views -/

/-- Whether a value counts as true. -/
def isTrue : Value → Bool
  | .undefined | .null => false
  | .bool b => b
  | .int n => n != 0
  | .float bits => Float.ofBits bits != 0.0
  | .string s => !s.isEmpty
  | .list items => !items.isEmpty
  | .map entries => !entries.isEmpty
  | .function _ => true

/-- The text of a string. -/
def string? : Value → Option String
  | .string s => some s
  | _ => none

/-- The items that a loop over a value goes through: of a map its keys, of a string its
characters. -/
def items? : Value → Option (List Value)
  | .undefined | .null => some []
  | .string s => some (s.toList.map fun c ↦ .string c.toString)
  | .list items => some items
  | .map entries => some (entries.map Prod.fst)
  | _ => none

/-- The number of items or characters. -/
def length? : Value → Option Nat
  | .string s => some s.length
  | .list items => some items.length
  | .map entries => some entries.length
  | _ => none

/-- The attribute of a value. -/
def attribute? (v : Value) (name : String) : Option Value :=
  match v with
  | .map entries => find? (.string name) entries
  | _ => none

/-- The place in a sequence of some length that an index means; a negative one counts from the
end. -/
def position? (length : Nat) (index : Value) : Option Nat := do
  let n ← index.int?
  if 0 ≤ n then some n.toNat
  else if n.natAbs ≤ length then some (length - n.natAbs)
  else none

/-- The item of a value at an index or under a key. -/
def item? (v : Value) (index : Value) : Option Value :=
  match v with
  | .map entries => find? index entries
  | .list items => (position? items.length index).bind fun n ↦ items[n]?
  | .string s => do
    let n ← position? s.length index
    let c ← s.toList[n]?
    some (.string c.toString)
  | _ => none

/-! ## Texts -/

/-- Numbers are always written positionally. -/
def numberLayout : Decimal.Layout where
  positional _ := true
  exponentSign := ""

/-- The text of a number of the format. -/
def floatText (bits : UInt64) : String :=
  match Decimal.Binary64.ofBits bits with
  | .finite negative d => (if negative then "-" else "") ++ numberLayout.text d
  | .infinite negative => if negative then "-inf" else "inf"
  | .nan => "NaN"

/-- The hexadecimal digits of a number. -/
def hexText (n : Nat) : String := String.ofList (Nat.toDigits 16 n)

/-- A character in a quoted string. -/
def quotedChar (c : Char) : String :=
  match c with
  | '"' => "\\\""
  | '\\' => "\\\\"
  | '\n' => "\\n"
  | '\r' => "\\r"
  | '\t' => "\\t"
  | '\x00' => "\\0"
  | c =>
    if Text.isPrintable c then c.toString else "\\u\x7b" ++ hexText c.toNat ++ "\x7d"

/-- A string with its quotes. -/
def quoted (s : String) : String :=
  "\"" ++ s.toList.foldl (fun acc c ↦ acc ++ quotedChar c) "" ++ "\""

mutual

/-- The text of a value inside a list or a map. -/
def inner : Value → String
  | .undefined => "undefined"
  | .null => "None"
  | .bool true => "True"
  | .bool false => "False"
  | .int n => toString n
  | .float bits => floatText bits
  | .string s => quoted s
  | .list items => "[" ++ innerItems items ++ "]"
  | .map entries => "\x7b" ++ innerEntries entries ++ "\x7d"
  | .function name => name

/-- The texts of items, with commas between them. -/
def innerItems : List Value → String
  | [] => ""
  | [v] => v.inner
  | v :: vs => v.inner ++ ", " ++ innerItems vs

/-- The texts of entries, with commas between them. -/
def innerEntries : List (Value × Value) → String
  | [] => ""
  | [(k, v)] => k.inner ++ ": " ++ v.inner
  | (k, v) :: es => k.inner ++ ": " ++ v.inner ++ ", " ++ innerEntries es

end

/-- The text that a value puts out: nothing if it is undefined, and a string as it is. -/
def text : Value → String
  | .undefined => ""
  | .string s => s
  | v => v.inner

/-! ## JSON -/

mutual

/-- The value of a JSON value. -/
def ofJson : Json.Value → Value
  | .null => .null
  | .bool b => .bool b
  | .number (.int n) => .int n
  | .number (.float bits) => .float bits
  | .string s => .string s
  | .array items => .list (ofItems items)
  | .object fields => ofEntries (ofFields fields)

/-- The values of the items of an array. -/
def ofItems : List Json.Value → List Value
  | [] => []
  | v :: vs => ofJson v :: ofItems vs

/-- The entries of an object. -/
def ofFields : List (String × Json.Value) → List (Value × Value)
  | [] => []
  | (k, v) :: fs => (.string k, ofJson v) :: ofFields fs

end

/-- The JSON key of a map's key. -/
def key? : Value → Option String
  | .string s => some s
  | .bool b => some (if b then "true" else "false")
  | .int n => some (toString n)
  | .float bits => if Decimal.isFiniteBits bits then some (Json.Number.float bits).text else none
  | .function name => some name
  | _ => none

mutual

/-- The JSON value of a value. There is none for whole numbers that take more than 64 bits and for
maps with other keys than texts, numbers and booleans. -/
def toJson? : Value → Option Json.Value
  | .undefined | .null => some .null
  | .bool b => some (.bool b)
  | .int n =>
    if -(Decimal.pow2 63 : Int) ≤ n ∧ n < Decimal.pow2 64 then some (.number (.int n)) else none
  | .float bits => some (if Decimal.isFiniteBits bits then .number (.float bits) else .null)
  | .string s => some (.string s)
  | .list items => (toItems? items).map .array
  | .map entries => (toFields? entries).map fun fields ↦ .ofFields (.ofList fields)
  | .function name => some (.string name)

/-- The JSON values of items. -/
def toItems? : List Value → Option (List Json.Value)
  | [] => some []
  | v :: vs => do
    let v ← toJson? v
    let vs ← toItems? vs
    some (v :: vs)

/-- The fields of entries. -/
def toFields? : List (Value × Value) → Option (List (String × Json.Value))
  | [] => some []
  | (k, v) :: es => do
    let k ← key? k
    let v ← toJson? v
    let es ← toFields? es
    some ((k, v) :: es)

end

end Value

end PromptDoc.Template
