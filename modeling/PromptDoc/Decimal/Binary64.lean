import PromptDoc.Decimal.Power

/-!
# Numbers of the 64-bit binary format

A finite number is a sign and a magnitude `mantissa * 2 ^ exponent`. Numbers are kept as their 64
bits, so that equality is decidable and `0` differs from `-0`. `nearest` gives the number closest
to a decimal, a tie going to the even mantissa.
-/

namespace PromptDoc.Decimal

/-- A non-negative dyadic number `mantissa * 2 ^ exponent`. -/
structure Dyadic where
  mantissa : Nat
  exponent : Int
  deriving DecidableEq

/-- A decoded number of the format. -/
inductive Binary64 where
  | finite (negative : Bool) (magnitude : Dyadic)
  | infinite (negative : Bool)
  | nan
  deriving DecidableEq

/-- The bits of positive infinity. -/
def infinityBits : Nat := 0x7FF * pow2 52

/-- Decode 64 bits. -/
def Binary64.ofBits (bits : UInt64) : Binary64 :=
  let n := bits.toNat
  let negative : Bool := pow2 63 ≤ n
  let biased : Nat := n / pow2 52 % pow2 11
  let fraction := n % pow2 52
  if biased = 2047 then
    if fraction = 0 then .infinite negative else .nan
  else if biased = 0 then .finite negative ⟨fraction, -1074⟩
  else .finite negative ⟨pow2 52 + fraction, (biased : Int) - 1075⟩

/-- The quotient rounded to the nearest integer, a tie going to the even one. -/
def roundDivEven (num den : Nat) : Nat :=
  let q := num / den
  let twice := 2 * (num % den)
  if twice < den then q
  else if den < twice then q + 1
  else q + q % 2

/-- The number of decimal digits; zero has none. -/
def digitCount (n : Nat) : Nat := if n = 0 then 0 else (Nat.toDigits 10 n).length

/-- The bits of the number nearest to `num / den`, for positive `num` and `den`. -/
def nearestRatioBits (num den : Nat) : Nat :=
  let guess : Int := (num.log2 : Int) - den.log2
  let reaches :=
    if 0 ≤ guess then den * pow2 guess.toNat ≤ num else den ≤ num * pow2 (-guess).toNat
  let top := if reaches then guess else guess - 1
  let exponent := max (top - 52) (-1074)
  let mantissa :=
    if 0 ≤ exponent then roundDivEven num (den * pow2 exponent.toNat)
    else roundDivEven (num * pow2 (-exponent).toNat) den
  min ((exponent + 1074).toNat * pow2 52 + mantissa) infinityBits

/-- The bits of the number nearest to `digits * 10 ^ exponent`; beyond the format's range, those of
zero or infinity. -/
def nearestBits (digits : Nat) (exponent : Int) : Nat :=
  if digits = 0 then 0
  else if 400 < digitCount digits + exponent then infinityBits
  else if digitCount digits + exponent < -400 then 0
  else if 0 ≤ exponent then nearestRatioBits (digits * pow10 exponent.toNat) 1
  else nearestRatioBits digits (pow10 (-exponent).toNat)

/-- The number nearest to a signed decimal, as its bits. -/
def nearest (negative : Bool) (digits : Nat) (exponent : Int) : UInt64 :=
  UInt64.ofNat (nearestBits digits exponent + if negative then pow2 63 else 0)

/-- Whether the bits are those of a number that is neither infinite nor undefined. -/
def isFiniteBits (bits : UInt64) : Bool :=
  match Binary64.ofBits bits with
  | .finite .. => true
  | _ => false

end PromptDoc.Decimal
