import PromptDoc.Decimal.Binary64

/-!
# Shortest decimals

The decimal with the fewest digits that reads back as a given number of the 64-bit format. The
numbers that read back are the reals nearer to it than to its neighbours, ends included when its
mantissa is even. For 1, 2, … 17 digits the two neighbours of the number on that decimal grid are
tested in exact arithmetic; the first grid with a hit wins, of two hits the nearer, and of two
equally near ones the even one.
-/

namespace PromptDoc.Decimal

/-- The decimal `digits * 10 ^ exponent`. -/
structure Shortest where
  digits : Nat
  exponent : Int
  deriving DecidableEq

/-- A number and the ends of the interval that rounds to it, over a common denominator. -/
structure Rounding where
  low : Nat
  value : Nat
  high : Nat
  denominator : Nat
  /-- Whether the ends belong to the interval. -/
  closed : Bool

/-- The interval that rounds to a positive number of the format. -/
def Rounding.of (d : Dyadic) : Rounding :=
  let below := if d.mantissa = pow2 52 ∧ -1074 < d.exponent then 1 else 2
  let scale := d.exponent - 2
  let up := if 0 ≤ scale then pow2 scale.toNat else 1
  let down := if 0 ≤ scale then 1 else pow2 (-scale).toNat
  ⟨(4 * d.mantissa - below) * up, 4 * d.mantissa * up, (4 * d.mantissa + 2) * up, down,
    d.mantissa % 2 = 0⟩

/-- Whether `num / den` is in the interval. -/
def Rounding.contains (r : Rounding) (num den : Nat) : Bool :=
  let x := num * r.denominator
  if r.closed then r.low * den ≤ x && x ≤ r.high * den
  else r.low * den < x && x < r.high * den

/-- The exponent of the first digit of `num / den`. -/
def leadExponent (num den : Nat) : Int :=
  if den ≤ num then (digitCount (num / den) : Int) - 1
  else -(digitCount ((den - 1) / num) : Int)

/-- The multiple of `10 ^ exponent` that reads back and is nearest to the number, if any does. -/
def Rounding.onGrid? (r : Rounding) (exponent : Int) : Option Nat :=
  let up := if 0 ≤ exponent then pow10 exponent.toNat else 1
  let down := if 0 ≤ exponent then 1 else pow10 (-exponent).toNat
  let value := r.value * down
  let step := r.denominator * up
  let lower := value / step
  let upper := lower + 1
  match r.contains (lower * up) down, r.contains (upper * up) down with
  | false, false => none
  | true, false => some lower
  | false, true => some upper
  | true, true => some (roundDivEven value step)

/-- The digits less the zeros at their end. -/
def Shortest.trimZeros : Nat → Shortest → Shortest
  | 0, s => s
  | fuel + 1, s =>
    if s.digits ≠ 0 ∧ s.digits % 10 = 0 then trimZeros fuel ⟨s.digits / 10, s.exponent + 1⟩ else s

/-- The shortest decimal of a number of the format. -/
def shortest (d : Dyadic) : Shortest :=
  if d.mantissa = 0 then ⟨0, 0⟩
  else
    let r := Rounding.of d
    let lead := leadExponent r.value r.denominator
    let hit := (List.range 17).findSome? fun (n : Nat) ↦
      (r.onGrid? (lead - n)).map fun digits ↦ (⟨digits, lead - n⟩ : Shortest)
    match hit with
    | some s => s.trimZeros 17
    | none => ⟨0, 0⟩

end PromptDoc.Decimal
