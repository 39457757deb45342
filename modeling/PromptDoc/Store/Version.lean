import PromptDoc.Decimal.Power
import PromptDoc.Text.Split

/-!
# Numeric versions

A numeric version is written as numbers with dots between them, behind an optional `v`. Each number
is below `2 ^ 64` and may have a plus sign. Versions are compared number by number, and a version
comes before those it is the beginning of.
-/

namespace PromptDoc

/-- The number that decimal digits write, if there are any. -/
def decimal? (cs : List Char) : Option Nat :=
  if cs.isEmpty || !cs.all Char.isDigit then none
  else some (cs.foldl (fun n c ↦ n * 10 + (c.toNat - '0'.toNat)) 0)

/-- A component of a numeric version. -/
def component? (cs : List Char) : Option Nat :=
  (decimal? (match cs with
    | '+' :: rest => rest
    | cs => cs)).filter fun n ↦ n < Decimal.pow2 64

/-- The components of a numeric version. Specification §10.7. -/
def numericVersion? (version : String) : Option (List Nat) :=
  let cs := match version.toList with
    | 'v' :: rest => rest
    | cs => cs
  (Text.fields '.' cs).mapM component?

/-- Whether the first version is below the second or equal to it. -/
def versionLe : List Nat → List Nat → Bool
  | [], _ => true
  | _ :: _, [] => false
  | a :: as, b :: bs => a < b || (a == b && versionLe as bs)

end PromptDoc
