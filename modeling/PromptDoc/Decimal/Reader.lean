import PromptDoc.Decimal.Binary64

/-!
# Reading decimals

A decimal is written as a sign, digits with a point among or beside them, and an exponent; all but
the digits may be missing. It reads as the number of the 64-bit format that is nearest to it.
-/

namespace PromptDoc.Decimal

/-- The value of some decimal digits. -/
def digitsValue (cs : List Char) : Nat :=
  cs.foldl (fun n c ↦ n * 10 + (c.toNat - '0'.toNat)) 0

/-- The text behind a sign. -/
def unsigned : List Char → List Char
  | '+' :: cs => cs
  | '-' :: cs => cs
  | cs => cs

/-- Read an exponent; a missing one is zero. -/
def exponent? : List Char → Option Int
  | [] => some 0
  | e :: cs =>
    if e == 'e' || e == 'E' then
      let digits := unsigned cs
      if digits.isEmpty || !digits.all Char.isDigit then none
      else if cs.head? = some '-' then some (-digitsValue digits)
      else some (digitsValue digits)
    else none

/-- The bits of the number nearest to a written decimal. -/
def read? (cs : List Char) : Option UInt64 := do
  let magnitude := unsigned cs
  let before := magnitude.takeWhile Char.isDigit
  let rest := magnitude.dropWhile Char.isDigit
  let (after, rest) := match rest with
    | '.' :: rest => (rest.takeWhile Char.isDigit, rest.dropWhile Char.isDigit)
    | _ => ([], rest)
  guard (!before.isEmpty || !after.isEmpty)
  let exponent ← exponent? rest
  some (nearest (cs.head? = some '-') (digitsValue (before ++ after)) (exponent - after.length))

end PromptDoc.Decimal
