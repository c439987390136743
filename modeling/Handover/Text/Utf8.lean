/-!
# Utf8 — characters from bytes

A character is one byte below `0x80`, or a leading byte followed by one to three continuation bytes.  The leading byte
says how many follow and which bytes the first of them may be, so that no character has two spellings, none lies in the
range of surrogates and none lies past `0x10FFFF`.  A text that is not of this form is answered with the number of
bytes before the first character that is not.
-/
namespace Handover
namespace Utf8

/-- A character that is not yet complete: the continuation bytes that are still to come, and the bounds of the next. -/
structure Partial where
  missing : Nat
  least : UInt8 := 0x80
  greatest : UInt8 := 0xBF
  code : Nat
  size : Nat
  deriving DecidableEq, Repr

/-- What a leading byte of several announces. -/
def lead? (b : UInt8) : Option Partial :=
  if 0xC2 ≤ b ∧ b ≤ 0xDF then some { missing := 1, code := b.toNat - 0xC0, size := 2 }
  else if b = 0xE0 then some { missing := 2, least := 0xA0, code := 0, size := 3 }
  else if b = 0xED then some { missing := 2, greatest := 0x9F, code := 0xD, size := 3 }
  else if 0xE1 ≤ b ∧ b ≤ 0xEF then some { missing := 2, code := b.toNat - 0xE0, size := 3 }
  else if b = 0xF0 then some { missing := 3, least := 0x90, code := 0, size := 4 }
  else if 0xF1 ≤ b ∧ b ≤ 0xF3 then some { missing := 3, code := b.toNat - 0xF0, size := 4 }
  else if b = 0xF4 then some { missing := 3, greatest := 0x8F, code := 4, size := 4 }
  else none

/-- The characters of the bytes that follow `valid` bytes of complete characters and perhaps the beginning of one. -/
def decodeFrom (valid : Nat) : Option Partial → List UInt8 → Except Nat (List Char)
  | none, [] => .ok []
  | some _, [] => .error valid
  | none, b :: rest =>
    if b < 0x80 then (decodeFrom (valid + 1) none rest).map (Char.ofNat b.toNat :: ·)
    else match lead? b with
      | none => .error valid
      | some p => decodeFrom valid (some p) rest
  | some p, b :: rest =>
    if p.least ≤ b ∧ b ≤ p.greatest then
      let code := p.code * 64 + (b.toNat - 0x80)
      if p.missing ≤ 1 then (decodeFrom (valid + p.size) none rest).map (Char.ofNat code :: ·)
      else decodeFrom valid (some { missing := p.missing - 1, code := code, size := p.size }) rest
    else .error valid

/-- The characters, or the number of bytes before the first that is none. -/
def decode (bytes : List UInt8) : Except Nat (List Char) := decodeFrom 0 none bytes

end Utf8
end Handover
