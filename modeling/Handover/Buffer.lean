import Handover.Fault
/-!
# Buffer — a ring of cells

A fixed number of cells used in a circle: items go in at `head` and come out at `tail`, both of which move on by one
cell and start over after the last.  The buffer takes no lock and never waits: whoever uses it has made sure of its
room or of its items before, and an item too many or too few is a fault that changes nothing.  `Buffer.toList` reads
the items oldest first.
-/
namespace Handover

structure Buffer (α : Type) where
  cells : Array (Option α)
  /-- The cell that the next item goes into. -/
  head : Nat := 0
  /-- The cell that the next item comes out of. -/
  tail : Nat := 0
  len : Nat := 0
  deriving DecidableEq, Repr, Inhabited

namespace Buffer

variable {α : Type}

def empty (capacity : Nat) : Buffer α := { cells := Array.replicate capacity none }

/-- An empty buffer, which must have a cell. -/
def new (capacity : Nat) : Except Fault (Buffer α) :=
  if capacity = 0 then .error .noCapacity else .ok (empty capacity)

def capacity (b : Buffer α) : Nat := b.cells.size

def isEmpty (b : Buffer α) : Bool := b.len == 0

def isFull (b : Buffer α) : Bool := b.len == b.capacity

/-- Puts an item into the cell at `head`. -/
def insert (b : Buffer α) (item : α) : Except Fault (Buffer α) :=
  if b.len = b.capacity then .error .bufferFull
  else match b.cells[b.head]? with
    | none => .error (.cellOutOfRange b.head b.capacity)
    | some (some _) => .error .cellTaken
    | some none => .ok
      { b with
        cells := b.cells.setIfInBounds b.head (some item)
        head := (b.head + 1) % b.capacity
        len := b.len + 1 }

/-- Takes the item out of the cell at `tail`. -/
def remove (b : Buffer α) : Except Fault (α × Buffer α) :=
  match b.cells[b.tail]? with
  | none => .error (.cellOutOfRange b.tail b.capacity)
  | some none => .error .bufferEmpty
  | some (some item) =>
    if b.len = 0 then .error .lengthUnderflow
    else .ok (item,
      { b with
        cells := b.cells.setIfInBounds b.tail none
        tail := (b.tail + 1) % b.capacity
        len := b.len - 1 })

/-- The items, oldest first. -/
def toList (b : Buffer α) : List α :=
  (List.range b.len).filterMap fun i => (b.cells[(b.tail + i) % b.capacity]?).join

end Buffer
end Handover
