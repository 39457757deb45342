import PromptDoc.Decimal.Reader
import PromptDoc.Json.Value

/-!
# What YAML scalars mean

A plain scalar is `null`, a boolean, a number or a string, told by its text alone. A tag can ask for
one of these kinds.
-/

namespace PromptDoc.Yaml.Scalar

open Json

/-- Whether a text writes `null`. -/
def isNull (s : String) : Bool := s = "null" || s = "Null" || s = "NULL" || s = "~"

/-- The boolean that a text writes. -/
def bool? (s : String) : Option Bool :=
  if s = "true" || s = "True" || s = "TRUE" then some true
  else if s = "false" || s = "False" || s = "FALSE" then some false
  else none

/-- Whether a text is more than one digit with a zero in front, which is no number. -/
def hasIdleZero (cs : List Char) : Bool :=
  match Decimal.unsigned cs with
  | '0' :: rest => !rest.isEmpty && rest.all Char.isDigit
  | _ => false

/-- The value of a digit of a base. -/
def digit? (base : Nat) (c : Char) : Option Nat :=
  (if c.isDigit then some (c.toNat - '0'.toNat)
  else if 'a' ≤ c && c ≤ 'f' then some (c.toNat - 'a'.toNat + 10)
  else if 'A' ≤ c && c ≤ 'F' then some (c.toNat - 'A'.toNat + 10)
  else none).filter (· < base)

/-- The number that a text writes in a base. -/
def natural? (base : Nat) (cs : List Char) : Option Nat :=
  if cs.isEmpty then none
  else cs.foldlM (fun n c ↦ (digit? base c).map (n * base + ·)) 0

/-- The magnitude of a whole number, of which `signed` is the whole text. -/
def magnitude? (signed : List Char) : List Char → Option Nat
  | '0' :: 'x' :: cs => natural? 16 cs
  | '0' :: 'o' :: cs => natural? 8 cs
  | '0' :: 'b' :: cs => natural? 2 cs
  | cs => if hasIdleZero signed then none else natural? 10 cs

/-- A whole number in a text. -/
inductive Whole where
  /-- It fits in 64 bits. -/
  | fits (n : Int)
  /-- It fits in 128 bits only. -/
  | tooLarge
  deriving DecidableEq

/-- The whole number that a text writes, unless it takes more than 128 bits. -/
def whole? (cs : List Char) : Option Whole :=
  match cs with
  | '-' :: rest => do
    let n ← magnitude? cs rest
    if n ≤ Decimal.pow2 63 then some (.fits (-n))
    else if n ≤ Decimal.pow2 127 then some .tooLarge
    else none
  | _ => do
    let n ← magnitude? cs (match cs with
      | '+' :: rest => rest
      | _ => cs)
    if n < Decimal.pow2 64 then some (.fits n)
    else if n < Decimal.pow2 128 then some .tooLarge
    else none

/-- The number that a text writes as a decimal fraction; one that is not finite is `null`. -/
def fraction? (s : String) : Option Value :=
  if [".inf", ".Inf", ".INF", "+.inf", "+.Inf", "+.INF", "-.inf", "-.Inf", "-.INF", ".nan", ".NaN",
      ".NAN"].contains s then some .null
  else ((Decimal.read? s.toList).filter Decimal.isFiniteBits).map fun bits ↦ .number (.float bits)

/-- The value of a plain scalar. A whole number that fits in 128 bits only is an error. -/
def plain? (s : String) : Option Value :=
  if s.isEmpty || isNull s then some .null
  else match bool? s, whole? s.toList with
    | some b, _ => some (.bool b)
    | none, some (.fits n) => some (.number (.int n))
    | none, some .tooLarge => none
    | none, none =>
      if hasIdleZero s.toList then some (.string s) else some ((fraction? s).getD (.string s))

/-- Whether a tag is an application's own. -/
def isLocalTag (tag : Option String) : Bool :=
  tag.any fun t ↦ t.toList.head? = some '!'

/-- The value of a scalar. An application's own tags are errors, and tags that name no kind ask for
a string. -/
def value? (tag : Option String) (s : String) (plain : Bool) : Option Value :=
  match tag with
  | none => if plain then plain? s else some (.string s)
  | some t =>
    if isLocalTag tag then none
    else if t = "tag:yaml.org,2002:bool" then (bool? s).map .bool
    else if t = "tag:yaml.org,2002:int" then
      match whole? s.toList with
      | some (.fits n) => some (.number (.int n))
      | _ => none
    else if t = "tag:yaml.org,2002:float" then fraction? s
    else if t = "tag:yaml.org,2002:null" then
      if isNull s then some .null else none
    else some (.string s)

/-- Whether a scalar stands for nothing where a text is asked for. `none` is an error. -/
def isAbsent? (tag : Option String) (s : String) (plain : Bool) : Option Bool :=
  match tag with
  | none => some (plain && (s.isEmpty || isNull s))
  | some t =>
    if plain && t = "tag:yaml.org,2002:null" then
      if isNull s then some true else none
    else some false

end PromptDoc.Yaml.Scalar
