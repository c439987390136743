import Handover.Fault
/-!
# Word — counting in 64 bits

Counters, item numbers and item values are natural numbers below `2 ^ 64`.  A sum, a difference or a product that would
leave this range is a fault, never a wrapped number, so a result that is there is the exact one (`add_eq_ok`,
`sub_eq_ok`, `mul_eq_ok`).
-/
namespace Handover
namespace Word

/-- The first number that does not fit in 64 bits, two to the power of sixty-four. -/
def limit : Nat := 18446744073709551616

/-- The sum, if it fits. -/
def add (a b : Nat) : Except Fault Nat :=
  if a + b < limit then .ok (a + b) else .error .sumOverflow

/-- The difference, if it is not below zero. -/
def sub (a b : Nat) : Except Fault Nat :=
  if b ≤ a then .ok (a - b) else .error .differenceOverflow

/-- The product, if it fits. -/
def mul (a b : Nat) : Except Fault Nat :=
  if a * b < limit then .ok (a * b) else .error .productOverflow

/-- The product, or the largest number that fits where the product does not. -/
def mulCapped (a b : Nat) : Nat :=
  if a * b < limit then a * b else limit - 1

theorem add_eq_ok {a b n : Nat} : add a b = .ok n ↔ a + b < limit ∧ a + b = n := by
  unfold add
  split <;> simp <;> omega

theorem sub_eq_ok {a b n : Nat} : sub a b = .ok n ↔ b ≤ a ∧ a - b = n := by
  unfold sub
  split <;> simp <;> omega

theorem mul_eq_ok {a b n : Nat} : mul a b = .ok n ↔ a * b < limit ∧ a * b = n := by
  unfold mul
  split <;> simp <;> omega

end Word
end Handover
