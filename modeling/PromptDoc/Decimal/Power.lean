/-!
# Powers

Powers of two and of ten.
-/

namespace PromptDoc.Decimal

/-- A power of two. -/
def pow2 (n : Nat) : Nat := Nat.pow 2 n

/-- A power of ten. -/
def pow10 (n : Nat) : Nat := Nat.pow 10 n

/-- The next power of two is twice as much. -/
theorem pow2_succ (n : Nat) : pow2 (n + 1) = pow2 n * 2 := rfl

/-- A power of two is positive. -/
theorem pow2_pos (n : Nat) : 0 < pow2 n := by
  induction n with
  | zero => decide
  | succ n ih => rw [pow2_succ]; omega

end PromptDoc.Decimal
