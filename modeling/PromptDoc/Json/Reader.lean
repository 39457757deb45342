import PromptDoc.Decimal.Binary64
import PromptDoc.Json.Value

/-!
# Reading JSON texts

A reader takes a value off the front of a text and gives the rest. An integer that fits in 64 bits
stays an integer. Any other number is one of the 64-bit binary format: its digits are gathered in a
64-bit significand, which is then multiplied or divided by a power of ten. A key that occurs twice
has its last value at its first place.
-/

namespace PromptDoc.Json

/-- The largest significand. -/
def maxSignificand : Nat := Decimal.pow2 64 - 1

/-- A decimal under construction: the significand so far and its power of ten. -/
structure Gathered where
  significand : Nat
  exponent : Int

/-- The power `10 ^ n` of the format. -/
def powerOfTen (n : Nat) : Float := Float.ofBits (Decimal.nearest false 1 n)

/-- Scale a number by a power of ten in steps the format can hold. `none` if it grows too large. -/
def scale : Nat → Float → Int → Option Float
  | 0, f, _ => some f
  | fuel + 1, f, exponent =>
    if exponent.natAbs ≤ 308 then
      if 0 ≤ exponent then
        let scaled := f * powerOfTen exponent.toNat
        if Decimal.isFiniteBits scaled.toBits then some scaled else none
      else some (f / powerOfTen exponent.natAbs)
    else if f.toBits = 0 then some f
    else if 0 ≤ exponent then none
    else scale fuel (f / powerOfTen 308) (exponent + 308)

/-- The number of a gathered decimal. -/
def Gathered.number? (negative : Bool) (g : Gathered) : Option Number :=
  (scale (g.exponent.natAbs / 308 + 1) (UInt64.ofNat g.significand).toFloat g.exponent).map fun f ↦
    .float (if negative then f.toBits ^^^ 0x8000000000000000 else f.toBits)

/-- The value of a decimal digit. -/
def digit? (c : Char) : Option Nat :=
  if '0' ≤ c ∧ c ≤ '9' then some (c.toNat - '0'.toNat) else none

/-- Gather the digits before the point. Once one does not fit, it and those behind it only count. -/
def gatherWhole (g : Gathered) (full : Bool) : List Char → Gathered × List Char
  | [] => (g, [])
  | c :: cs =>
    match digit? c with
    | none => (g, c :: cs)
    | some d =>
      let next := g.significand * 10 + d
      if full || maxSignificand < next then
        gatherWhole ⟨g.significand, g.exponent + 1⟩ true cs
      else gatherWhole ⟨next, g.exponent⟩ false cs

/-- Gather the digits behind the point. The first that does not fit ends the gathering. -/
def gatherFraction (g : Gathered) : List Char → Gathered × List Char
  | [] => (g, [])
  | c :: cs =>
    match digit? c with
    | none => (g, c :: cs)
    | some d =>
      let next := g.significand * 10 + d
      if maxSignificand < next then (g, cs.dropWhile fun c ↦ (digit? c).isSome)
      else gatherFraction ⟨next, g.exponent - 1⟩ cs

/-- Read the digits of an exponent, `bound` standing for any greater one. -/
def readExponent (bound : Nat) (n : Nat) : List Char → Nat × List Char
  | [] => (n, [])
  | c :: cs =>
    match digit? c with
    | none => (n, c :: cs)
    | some d => readExponent bound (min bound (n * 10 + d)) cs

/-- Read an exponent, if there is one, and scale the gathered decimal by it. -/
def finishNumber (negative : Bool) (g : Gathered) : List Char → Option (Number × List Char)
  | 'e' :: cs | 'E' :: cs => do
    let (down, digits) := match cs with
      | '-' :: r => (true, r)
      | '+' :: r => (false, r)
      | r => (false, r)
    let first ← digits.head?
    guard (digit? first).isSome
    let (n, rest) := readExponent 2147483647 0 digits
    let exponent : Int := if down then g.exponent - n else g.exponent + n
    let number ← Gathered.number? negative ⟨g.significand, exponent⟩
    some (number, rest)
  | rest => (g.number? negative).map fun number ↦ (number, rest)

/-- Read a number behind its sign. -/
def readMagnitude (negative : Bool) (cs : List Char) : Option (Number × List Char) := do
  let first ← cs.head?
  guard (digit? first).isSome
  let (g, rest) :=
    if first = '0' then ((⟨0, 0⟩ : Gathered), cs.drop 1) else gatherWhole ⟨0, 0⟩ false cs
  match rest with
  | '.' :: fraction =>
    let next ← fraction.head?
    guard (digit? next).isSome
    let (g, rest) := gatherFraction g fraction
    finishNumber negative g rest
  | 'e' :: _ | 'E' :: _ => finishNumber negative g rest
  | c :: _ =>
    guard (digit? c).isNone
    whole g rest
  | [] => whole g rest
where
  /-- A number without point and exponent. -/
  whole (g : Gathered) (rest : List Char) : Option (Number × List Char) :=
    if g.exponent ≠ 0 then finishNumber negative g rest
    else if !negative then some (.int g.significand, rest)
    else if g.significand ≠ 0 ∧ g.significand ≤ Decimal.pow2 63 then
      some (.int (-g.significand), rest)
    else finishNumber negative g rest

/-- The value of a hexadecimal digit. -/
def hexDigit? (c : Char) : Option Nat :=
  if '0' ≤ c ∧ c ≤ '9' then some (c.toNat - '0'.toNat)
  else if 'a' ≤ c ∧ c ≤ 'f' then some (c.toNat - 'a'.toNat + 10)
  else if 'A' ≤ c ∧ c ≤ 'F' then some (c.toNat - 'A'.toNat + 10)
  else none

/-- Read four hexadecimal digits. -/
def readHex4 : List Char → Option (Nat × List Char)
  | a :: b :: c :: d :: rest => do
    let a ← hexDigit? a
    let b ← hexDigit? b
    let c ← hexDigit? c
    let d ← hexDigit? d
    some (((a * 16 + b) * 16 + c) * 16 + d, rest)
  | _ => none

/-- Read the four digits of a `\u` escape, and a second escape if they begin a pair. -/
def readUnicode (cs : List Char) : Option (Char × List Char) := do
  let (unit, rest) ← readHex4 cs
  if 0xD800 ≤ unit ∧ unit < 0xDC00 then
    match rest with
    | '\\' :: 'u' :: more =>
      let (low, rest) ← readHex4 more
      guard (0xDC00 ≤ low ∧ low < 0xE000)
      some (Char.ofNat (0x10000 + (unit - 0xD800) * 0x400 + (low - 0xDC00)), rest)
    | _ => none
  else
    guard (¬(0xDC00 ≤ unit ∧ unit < 0xE000))
    some (Char.ofNat unit, rest)

/-- The character of a one-letter escape. -/
def escape? : Char → Option Char
  | '"' => some '"'
  | '\\' => some '\\'
  | '/' => some '/'
  | 'b' => some '\x08'
  | 'f' => some '\x0c'
  | 'n' => some '\n'
  | 'r' => some '\r'
  | 't' => some '\t'
  | _ => none

/-- Read the rest of a string behind its opening quote; `acc` holds what is read, backwards. -/
def readString : Nat → List Char → List Char → Option (String × List Char)
  | 0, _, _ => none
  | fuel + 1, acc, cs =>
    match cs with
    | [] => none
    | '"' :: rest => some (String.ofList acc.reverse, rest)
    | '\\' :: 'u' :: rest => do
      let (c, rest) ← readUnicode rest
      readString fuel (c :: acc) rest
    | '\\' :: c :: rest => do
      let c ← escape? c
      readString fuel (c :: acc) rest
    | c :: rest => if c.toNat < 0x20 then none else readString fuel (c :: acc) rest

/-- Whether a character may stand between tokens. -/
def isGap (c : Char) : Bool := c == ' ' || c == '\n' || c == '\t' || c == '\r'

/-- The text behind leading gaps. -/
def skipGap (cs : List Char) : List Char := cs.dropWhile isGap

mutual

/-- Read a value. -/
def readValue : Nat → List Char → Option (Value × List Char)
  | 0, _ => none
  | fuel + 1, cs =>
    match skipGap cs with
    | 'n' :: 'u' :: 'l' :: 'l' :: rest => some (.null, rest)
    | 't' :: 'r' :: 'u' :: 'e' :: rest => some (.bool true, rest)
    | 'f' :: 'a' :: 'l' :: 's' :: 'e' :: rest => some (.bool false, rest)
    | '"' :: rest => do
      let (s, rest) ← readString (rest.length + 1) [] rest
      some (.string s, rest)
    | '[' :: rest =>
      match skipGap rest with
      | ']' :: rest => some (.array [], rest)
      | rest => do
        let (items, rest) ← readItems fuel rest
        some (.array items, rest)
    | '\x7b' :: rest =>
      match skipGap rest with
      | '\x7d' :: rest => some (.object [], rest)
      | rest => do
        let (fields, rest) ← readFields fuel ∅ rest
        some (.ofFields fields, rest)
    | '-' :: rest => (readMagnitude true rest).map fun r ↦ (.number r.1, r.2)
    | rest => (readMagnitude false rest).map fun r ↦ (.number r.1, r.2)

/-- Read the items of an array and its closing bracket. -/
def readItems : Nat → List Char → Option (List Value × List Char)
  | 0, _ => none
  | fuel + 1, cs => do
    let (v, rest) ← readValue fuel cs
    match skipGap rest with
    | ',' :: rest =>
      let (vs, rest) ← readItems fuel rest
      some (v :: vs, rest)
    | ']' :: rest => some ([v], rest)
    | _ => none

/-- Read the entries of an object into `m`, and the closing brace. -/
def readFields : Nat → Fields → List Char → Option (Fields × List Char)
  | 0, _, _ => none
  | fuel + 1, m, cs => do
    match skipGap cs with
    | '"' :: rest =>
      let (k, rest) ← readString (rest.length + 1) [] rest
      match skipGap rest with
      | ':' :: rest =>
        let (v, rest) ← readValue fuel rest
        match skipGap rest with
        | ',' :: rest => readFields fuel (m.insert k v) rest
        | '\x7d' :: rest => some (m.insert k v, rest)
        | _ => none
      | _ => none
    | _ => none

end

/-- The value that a text denotes. -/
def read? (s : String) : Option Value := do
  let cs := s.toList
  let (v, rest) ← readValue (cs.length + 1) cs
  guard (skipGap rest).isEmpty
  some v

end PromptDoc.Json
