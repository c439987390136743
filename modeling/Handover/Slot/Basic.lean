import Handover.Slot.Semaphore
/-!
# Slots — free and filled places, counted

Two semaphores count the places of a buffer: the free ones, of which there are as many as the buffer has cells, and the
filled ones, of which there are none at first.  Whoever takes a unit holds a permit.  It passes the permit on, which
posts the opposite counter, or gives it back, which posts the counter it came from (`Slots.pass`, `Slots.post`).  The
counters know nothing of the buffer itself.
-/
namespace Handover

/-- The two kinds of place: a cell without an item and a cell with one. -/
inductive Side where
  | free
  | filled
  deriving DecidableEq, Repr, Inhabited

def Side.other : Side → Side
  | free => filled
  | filled => free

structure Sides (α : Type) where
  free : α
  filled : α
  deriving DecidableEq, Repr, Inhabited

namespace Sides

variable {α : Type}

def get (p : Sides α) : Side → α
  | .free => p.free
  | .filled => p.filled

def set (p : Sides α) (side : Side) (a : α) : Sides α :=
  match side with
  | .free => { p with free := a }
  | .filled => { p with filled := a }

@[simp] theorem get_set_self (p : Sides α) (side : Side) (a : α) : (p.set side a).get side = a := by
  cases side <;> rfl

@[simp] theorem get_set_other (p : Sides α) (side : Side) (a : α) :
    (p.set side a).get side.other = p.get side.other := by
  cases side <;> rfl

end Sides

/-- The counters of free and filled places. -/
abbrev Slots := Sides Semaphore

inductive SlotsError where
  | tooWide
  | refused (cause : CodeError)
  deriving DecidableEq, Repr

def SlotsError.message : SlotsError → String
  | tooWide => "number too large to fit in target type"
  | refused cause => cause.message

namespace Slots

def ofCapacity (capacity : Nat) : Slots := ⟨⟨capacity⟩, ⟨0⟩⟩

/-- All places free, if they can be counted: the number must fit in 32 bits, and then the counter must take it. -/
def new (capacity : Nat) : Except SlotsError Slots :=
  if 4294967296 ≤ capacity then .error .tooWide
  else match Semaphore.new capacity with
    | .error e => .error (.refused e)
    | .ok free => .ok ⟨free, ⟨0⟩⟩

def take? (s : Slots) (side : Side) : Option Slots :=
  (s.get side).take?.map (s.set side)

/-- Adds a place to a side; a permit that is given back is added to the side it was taken from. -/
def post (s : Slots) (side : Side) : Except Fault Slots :=
  (s.get side).post.map (s.set side)

/-- Passes on a permit that was just taken from `side`, so that its own counter has room for it.  If the opposite counter
is at its limit the permit is given back. -/
def pass (s : Slots) (side : Side) : Slots × Except Fault Unit :=
  match s.post side.other with
  | .ok s' => (s', .ok ())
  | .error f => match s.post side with
    | .ok s' => (s', .error f)
    | .error _ => (s, .error f)

end Slots
end Handover
