import Handover.Word
/-!
# Item — what a producer hands over

An item says who made it and which of its maker's items it is, and its value tells the same in one number.
-/
namespace Handover

/-- What a producer hands over. -/
structure Item where
  producer : Nat
  /-- How many items its maker had made before. -/
  sequence : Nat
  value : Nat
  deriving DecidableEq, Repr, Inhabited

namespace Item

/-- The value of an item: a hundred for each producer before its own, and its place among its maker's items. -/
def valueOf (producer sequence : Nat) : Nat := producer * 100 + sequence

def of (producer sequence : Nat) : Item := ⟨producer, sequence, valueOf producer sequence⟩

def checkedValue (producer sequence : Nat) : Except Fault Nat := do
  Word.add (← Word.mul producer 100) sequence

def make (producer sequence : Nat) : Except Fault Item := do
  let value ← checkedValue producer sequence
  return ⟨producer, sequence, value⟩

/-- The 64-bit value is the exact one, and is there exactly if that one fits. -/
theorem checkedValue_eq_ok {producer sequence n : Nat} :
    checkedValue producer sequence = .ok n ↔
      valueOf producer sequence < Word.limit ∧ valueOf producer sequence = n := by
  unfold checkedValue valueOf
  cases h : Word.mul producer 100 with
  | error f =>
    have : ¬ producer * 100 < Word.limit := by
      intro hlt
      rw [Word.mul_eq_ok.2 ⟨hlt, rfl⟩] at h
      exact absurd h (by simp)
    simp only [bind, Except.bind, reduceCtorEq, false_iff]
    omega
  | ok v =>
    obtain ⟨-, rfl⟩ := Word.mul_eq_ok.1 h
    simp only [bind, Except.bind, Word.add_eq_ok]

/-- An item that can be made is the one with its origin. -/
theorem make_eq_ok {producer sequence : Nat} {i : Item} :
    make producer sequence = .ok i ↔ valueOf producer sequence < Word.limit ∧ of producer sequence = i := by
  unfold make of
  cases h : checkedValue producer sequence with
  | error f =>
    have : ¬ valueOf producer sequence < Word.limit := by
      intro hlt
      rw [checkedValue_eq_ok.2 ⟨hlt, rfl⟩] at h
      exact absurd h (by simp)
    simp [bind, Except.bind, this]
  | ok v =>
    obtain ⟨hlt, rfl⟩ := checkedValue_eq_ok.1 h
    simp [bind, Except.bind, pure, Except.pure, hlt]

end Item
end Handover
