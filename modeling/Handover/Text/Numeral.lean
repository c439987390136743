import Handover.Word
/-!
# Numeral — numbers as digits

Reading a numeral goes digit by digit from the left, after one optional `+`, and stops at the first character that is
no digit or the first digit with which the number leaves 64 bits, whichever comes first.  Writing is in decimal,
without leading zeros.
-/
namespace Handover
namespace Numeral

inductive Error where
  | empty
  | invalidDigit
  | tooLarge
  deriving DecidableEq, Repr

def Error.message : Error → String
  | empty => "cannot parse integer from empty string"
  | invalidDigit => "invalid digit found in string"
  | tooLarge => "number too large to fit in target type"

/-- The value of a digit in a base of at most thirty-six; letters of either case follow the ten digits. -/
def digit? (base : Nat) (c : Char) : Option Nat :=
  let d :=
    if '0' ≤ c ∧ c ≤ '9' then c.toNat - '0'.toNat
    else if 'a' ≤ c ∧ c ≤ 'z' then c.toNat - 'a'.toNat + 10
    else if 'A' ≤ c ∧ c ≤ 'Z' then c.toNat - 'A'.toNat + 10
    else base
  if d < base then some d else none

/-- The number with these further digits after `n`. -/
def readDigits (base n : Nat) : List Char → Except Error Nat
  | [] => .ok n
  | c :: rest => match digit? base c with
    | none => .error .invalidDigit
    | some d =>
      if n * base + d < Word.limit then readDigits base (n * base + d) rest else .error .tooLarge

/-- The number that a text spells. -/
def read (base : Nat) : List Char → Except Error Nat
  | [] => .error .empty
  | ['+'] => .error .invalidDigit
  | '+' :: digits => readDigits base 0 digits
  | digits => readDigits base 0 digits

def digitChar (d : Nat) : Char := Char.ofNat ('0'.toNat + d)

/-- The decimal digits of a number. -/
def write (n : Nat) : List Char :=
  if n < 10 then [digitChar n] else write (n / 10) ++ [digitChar (n % 10)]

end Numeral
end Handover
