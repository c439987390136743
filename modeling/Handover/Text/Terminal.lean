/-!
# Terminal — text without what only a terminal obeys

A terminal obeys control characters and control sequences and does not show them.  A plain text leaves them out: every
control character that is no blank, and every sequence from its escape character to the character that ends it.  A
sequence is one of four kinds.  A short one ends with the first character that is no mark, one with parameters ends with
a letter, a title ends with a bell, and a string ends with an octet of its own.  A new escape character begins a new
sequence inside any of them, and a cancelling character or, in the first two kinds, a blank cuts them off.
-/
namespace Handover
namespace Terminal

/-- Where a text stands with respect to control sequences. -/
inductive Place where
  | plain
  | escape
  /-- After marks that follow an escape character. -/
  | marked
  /-- In a sequence with parameters. -/
  | parameters
  /-- At the head of a string for a device. -/
  | device
  | deviceNumbers
  | deviceMarks
  | string
  | title
  deriving DecidableEq, Repr

def isBlankControl (c : Char) : Bool := c = '\t' || c = '\n' || c = '\x0c' || c = '\r'

/-- A character that is no control character of ASCII. -/
def isGraphic (c : Char) : Bool := ' ' ≤ c && c ≠ '\x7f'

def isWithin (low high c : Char) : Bool := low ≤ c && c ≤ high

/-- The octets of the character have the one that ends a string. -/
def endsString (c : Char) : Bool := (String.utf8EncodeChar c).contains 0x9c

namespace Place

def shows : Place → Char → Bool
  | plain, c => isGraphic c || isBlankControl c
  | escape, c | marked, c | parameters, c => isBlankControl c
  | _, _ => false

/-- The place after a character that is neither an escape character nor a cancelling one. -/
def pass : Place → Char → Place
  | plain, _ => plain
  | escape, c =>
    if isWithin ' ' '/' c then marked
    else if c = '[' then parameters
    else if c = ']' then title
    else if c = 'P' then device
    else if c = 'X' ∨ c = '^' ∨ c = '_' then string
    else if isWithin '0' '~' c then plain
    else escape
  | marked, c => if isWithin '0' '~' c then plain else marked
  | parameters, c => if isWithin '@' '~' c then plain else parameters
  | device, c =>
    if isWithin ' ' '/' c then deviceMarks
    else if isWithin '0' '?' c then deviceNumbers
    else if isWithin '@' '~' c then string
    else device
  | deviceNumbers, c =>
    if isWithin ' ' '/' c then deviceMarks else if isWithin '<' '~' c then string else deviceNumbers
  | deviceMarks, c => if isWithin '0' '~' c then string else deviceMarks
  | string, c => if endsString c then plain else string
  | title, c => if c = '\x07' then plain else title

def next (place : Place) (c : Char) : Place :=
  if c = '\x1b' then escape else if c = '\x18' ∨ c = '\x1a' then plain else place.pass c

end Place

def visible : Place → List Char → List Char
  | _, [] => []
  | place, c :: rest => if place.shows c then c :: visible .plain rest else visible (place.next c) rest

/-- The text without what only a terminal obeys. -/
def plainText (text : String) : String := String.ofList (visible .plain text.toList)

end Terminal
end Handover
