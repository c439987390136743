import Handover.Fault
/-!
# Mutex — a value for one holder at a time

Whoever wants to read or change the value takes the mutex first and gives it up afterwards.  A mutex is taken down only
while nobody holds it.
-/
namespace Handover

structure Mutex (α : Type) where
  value : α
  held : Bool := false
  deriving DecidableEq, Repr, Inhabited

namespace Mutex

variable {α : Type}

def lock? (m : Mutex α) : Option (Mutex α) :=
  if m.held then none else some { m with held := true }

def unlock (m : Mutex α) : Mutex α := { m with held := false }

/-- Takes the mutex, changes the value and gives the mutex up; waits for good if somebody keeps the mutex. -/
def update? (m : Mutex α) (change : α → α) : Option (Mutex α) :=
  m.lock?.map fun m => { m with value := change m.value }.unlock

/-- Takes the mutex down and hands out its value. -/
def intoInner (m : Mutex α) : Except Fault α :=
  if m.held then .error .mutexHeld else .ok m.value

/-- Adds `amount` so many times, each time under the mutex. -/
def addTimes (amount : Int) : Nat → Mutex Int → Option (Mutex Int)
  | 0, m => some m
  | n + 1, m => (m.update? (· + amount)).bind (addTimes amount n)

/-- One adder after the other adds its amount so many times. -/
def addAll (m : Mutex Int) (amounts : List Int) (times : Nat) : Option (Mutex Int) :=
  amounts.foldlM (fun m amount => addTimes amount times m) m

end Mutex
end Handover
