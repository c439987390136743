/-!
# Table — rows and fields of a delimited text

Fields are separated by commas and rows are ended by a line feed or a carriage return; rows without any byte do not
count.  A field that begins with a quote runs to the next quote, commas and line ends included, and a doubled quote in
it stands for one; what follows the closing quote is added as it stands.  At the end of the text an unfinished row
counts as finished.  Nothing in a text is refused here.

A row remembers where it began: the byte right after the one that ended the row before, and the number of line feeds
before that byte, counted from one.  A byte-order mark at the very start belongs to no field, but counts as bytes.
-/
namespace Handover
namespace Table

structure Position where
  /-- One more than the line feeds before it. -/
  line : Nat := 1
  byte : Nat := 0
  deriving DecidableEq, Repr, Inhabited

def Position.after (p : Position) (b : UInt8) : Position where
  line := if b = 0x0A then p.line + 1 else p.line
  byte := p.byte + 1

structure Row where
  fields : List (List UInt8)
  origin : Position
  deriving DecidableEq, Repr

/-- Where in a row the reader stands. -/
inductive Mode where
  | rowStart
  | fieldStart
  /-- In a field without quotes, or after its closing quote. -/
  | plain
  | quoted
  /-- After a quote that closes the field unless another one follows. -/
  | quoteSeen
  deriving DecidableEq, Repr, Inhabited

structure Scan where
  mode : Mode := .rowStart
  /-- The complete fields of the row, the last one first. -/
  done : List (List UInt8) := []
  /-- The bytes of the field, the last one first. -/
  field : List UInt8 := []
  origin : Position := {}
  here : Position := {}
  deriving DecidableEq, Repr, Inhabited

def comma : UInt8 := 0x2C

def quote : UInt8 := 0x22

def endsRow (b : UInt8) : Bool := b = 0x0A || b = 0x0D

namespace Scan

def push (s : Scan) (b : UInt8) (mode : Mode) : Scan := { s with field := b :: s.field, mode := mode }

def endField (s : Scan) : Scan :=
  { s with done := s.field.reverse :: s.done, field := [], mode := .fieldStart }

/-- The row, with the field as its last. -/
def row (s : Scan) : Row := ⟨(s.field.reverse :: s.done).reverse, s.origin⟩

/-- A byte outside of quotes, where a quote has no meaning. -/
def feedPlain (s : Scan) (b : UInt8) : Scan × Option Row :=
  if b = comma then (s.endField, none)
  else if endsRow b then ({ origin := s.here, here := s.here }, some s.row)
  else (s.push b .plain, none)

/-- A byte at the start of a field. -/
def feedStart (s : Scan) (b : UInt8) : Scan × Option Row :=
  if b = quote then ({ s with mode := .quoted }, none) else s.feedPlain b

/-- The reader after one more byte, and the row that it ended. -/
def feed (s : Scan) (b : UInt8) : Scan × Option Row :=
  let s := { s with here := s.here.after b }
  match s.mode with
  | .rowStart => if endsRow b then (s, none) else s.feedStart b
  | .fieldStart => s.feedStart b
  | .plain => s.feedPlain b
  | .quoted => if b = quote then ({ s with mode := .quoteSeen }, none) else (s.push b .quoted, none)
  | .quoteSeen => if b = quote then (s.push b .quoted, none) else s.feedPlain b

/-- The rows that the rest of the text completes, and the unfinished one at its end. -/
def rows (s : Scan) : List UInt8 → List Row
  | [] => if s.mode = .rowStart then [] else [s.row]
  | b :: rest => match s.feed b with
    | (s', some row) => row :: rows s' rest
    | (s', none) => rows s' rest

end Scan

def rows : List UInt8 → List Row
  | 0xEF :: 0xBB :: 0xBF :: rest => Scan.rows { here := { byte := 3 } } rest
  | text => Scan.rows {} text

end Table
end Handover
