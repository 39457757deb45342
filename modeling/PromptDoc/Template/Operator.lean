import PromptDoc.Template.Syntax
import PromptDoc.Template.Value

/-!
# Template operators

What the operators of expressions do with two values. Whole numbers are kept exact and must fit in
128 bits; where a number of the binary format takes part, both sides become such numbers. Booleans
count as 0 and 1.
-/

namespace PromptDoc.Template

namespace Value

/-- A whole number as a value, if it fits in 128 bits. -/
def ofInt? (n : Int) : Option Value :=
  if -(Decimal.pow2 127 : Int) ≤ n ∧ n < Decimal.pow2 127 then some (.int n) else none

/-- A number of the binary format as a value. -/
def ofFloat (f : Float) : Value := .float f.toBits

/-- Whether a value is a number of the binary format. -/
def isFloat : Value → Bool
  | .float _ => true
  | _ => false

/-- Compute with two numbers: with whole numbers if both are, else in the binary format. -/
def arithmetic (whole : Int → Int → Option Int) (binary : Float → Float → Float) (a b : Value) :
    Option Value :=
  if a.isFloat || b.isFloat then do
    let x ← a.float?
    let y ← b.float?
    some (ofFloat (binary x y))
  else do
    let x ← a.int?
    let y ← b.int?
    (whole x y).bind ofInt?

/-- The part of a number of the binary format before its point. -/
def truncated (f : Float) : Float := if f < 0 then f.ceil else f.floor

/-- The remainder of a division that is truncated. -/
def floatRemainder (a b : Float) : Float := a - b * truncated (a / b)

/-- The quotient of a division whose remainder is not negative. -/
def floatQuotient (a b : Float) : Float :=
  let q := truncated (a / b)
  if floatRemainder a b < 0 then (if 0 < b then q - 1 else q + 1) else q

/-- A power of whole numbers, if it fits in 128 bits. -/
def power? (a b : Int) : Option Int :=
  if b < 0 then none
  else if a.natAbs ≤ 1 then some (Int.pow a (b.toNat % 2 + if b = 0 then 0 else 2))
  else if b ≤ 127 then some (Int.pow a b.toNat)
  else none

/-- A text or a list several times over. -/
def repeated? (v : Value) (times : Value) : Option Value := do
  let n ← times.int?
  guard (0 ≤ n)
  match v with
  | .string s => some (.string (String.join (List.replicate n.toNat s)))
  | .list items => some (.list (List.replicate n.toNat items).flatten)
  | _ => none

/-- Whether some characters occur in a text in a row. -/
def holdsText (needle : List Char) : List Char → Bool
  | [] => needle.isEmpty
  | c :: cs => needle.isPrefixOf (c :: cs) || holdsText needle cs

/-- Whether a value is a member of another. -/
def isMember? (v container : Value) : Option Bool :=
  match container with
  | .undefined => some false
  | .string s => some (holdsText v.text.toList s.toList)
  | .list items => some (items.any fun i ↦ isEqual i v)
  | .map entries => some (find? v entries).isSome
  | .function _ => some false
  | _ => none

/-- Multiply two values. -/
def multiply? (a b : Value) : Option Value :=
  match a, b with
  | .string _, _ | .list _, _ => repeated? a b
  | _, .string _ | _, .list _ => repeated? b a
  | _, _ => arithmetic (fun x y ↦ some (x * y)) (· * ·) a b

/-- Add two values: texts and lists are put together. -/
def add? : Value → Value → Option Value
  | .string a, .string b => some (.string (a ++ b))
  | .list as, .list bs => some (.list (as ++ bs))
  | a, b => arithmetic (fun x y ↦ some (x + y)) (· + ·) a b

/-- The number with its sign changed. -/
def negate? : Value → Option Value
  | .int n => ofInt? (-n)
  | .float bits => some (ofFloat (-(Float.ofBits bits)))
  | _ => none

end Value

open Value

/-- What an operator makes of two values. -/
def Operator.apply? (op : Operator) (a b : Value) : Option Value :=
  match op with
  | .add => add? a b
  | .subtract => arithmetic (fun x y ↦ some (x - y)) (· - ·) a b
  | .multiply => multiply? a b
  | .divide => do
    let x ← a.float?
    let y ← b.float?
    some (ofFloat (x / y))
  | .divideWhole => arithmetic (fun x y ↦ if y = 0 then none else some (x / y)) floatQuotient a b
  | .remainder => arithmetic (fun x y ↦ if y = 0 then none else some (x % y)) floatRemainder a b
  | .power => arithmetic power? Float.pow a b
  | .concat => some (.string (a.text ++ b.text))
  | .equal => some (.bool (isEqual a b))
  | .unequal => some (.bool (!isEqual a b))
  | .less => some (.bool (order a b = .lt))
  | .lessEqual => some (.bool (order a b ≠ .gt))
  | .greater => some (.bool (order a b = .gt))
  | .greaterEqual => some (.bool (order a b ≠ .lt))
  | .member => (isMember? a b).map .bool

end PromptDoc.Template
