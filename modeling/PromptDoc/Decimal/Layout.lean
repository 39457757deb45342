import PromptDoc.Decimal.Shortest

/-!
# Decimal layouts

How the digits of a number are laid out: positionally, or with one digit before the point and an
exponent. A `Layout` says which numbers are written which way.
-/

namespace PromptDoc.Decimal

/-- The choices of a layout. -/
structure Layout where
  /-- The exponents of the first digit that are written positionally. -/
  positional : Int → Bool
  /-- The mark before an exponent that is not negative. -/
  exponentSign : String

/-- A run of zeros. -/
def zeros (n : Nat) : String := String.ofList (List.replicate n '0')

/-- The digits and the exponent of the first of them. -/
def Shortest.scientific (s : Shortest) : String × Int :=
  let digits := String.ofList (Nat.toDigits 10 s.digits)
  (digits, s.exponent + digits.length - 1)

/-- The positional form, with at least one digit on each side of the point. -/
def positionalText (digits : String) (lead : Int) : String :=
  let cs := digits.toList
  if lead < 0 then "0." ++ zeros (-lead - 1).toNat ++ digits
  else
    let whole := lead.toNat + 1
    if whole < cs.length then
      String.ofList (cs.take whole) ++ "." ++ String.ofList (cs.drop whole)
    else digits ++ zeros (whole - cs.length) ++ ".0"

/-- The form with an exponent. -/
def exponentText (digits : String) (lead : Int) (sign : String) : String :=
  let cs := digits.toList
  let fraction := cs.drop 1
  let point := if fraction.isEmpty then "" else "." ++ String.ofList fraction
  let exponent :=
    if lead < 0 then "-" ++ Nat.repr (-lead).toNat else sign ++ Nat.repr lead.toNat
  String.ofList (cs.take 1) ++ point ++ "e" ++ exponent

/-- A magnitude in a layout. -/
def Layout.text (layout : Layout) (d : Dyadic) : String :=
  if d.mantissa = 0 then "0.0"
  else
    let (digits, lead) := (shortest d).scientific
    if layout.positional lead then positionalText digits lead
    else exponentText digits lead layout.exponentSign

end PromptDoc.Decimal
