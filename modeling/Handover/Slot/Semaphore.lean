import Handover.Config
import Handover.ReturnCode
/-!
# Semaphore — a counter that can be waited for

A semaphore counts up to `slotLimit`.  Taking one unit needs a positive count; posting at the limit is a fault.
`Semaphore.Line` adds the threads that wait for a unit: a step lets one of them through (`Line.serve?`), and a line is
settled when no such step is left, so that threads are left waiting only at the count zero (`Line.settle`).
-/
namespace Handover

/-- A counter that can be waited for. -/
@[ext] structure Semaphore where
  /-- The units that can be taken without waiting. -/
  value : Nat
  deriving DecidableEq, Repr, Inhabited

namespace Semaphore

/-- A semaphore that starts at `value`, which must not exceed the limit. -/
def new (value : Nat) : Except CodeError Semaphore := do
  checkCode "sem_init" (if value ≤ slotLimit then 0 else -1)
  return ⟨value⟩

def take? (s : Semaphore) : Option Semaphore :=
  if s.value = 0 then none else some ⟨s.value - 1⟩

def post (s : Semaphore) : Except Fault Semaphore :=
  if s.value < slotLimit then .ok ⟨s.value + 1⟩ else .error .slotOverflow

theorem take?_eq_some {s t : Semaphore} : s.take? = some t ↔ s.value = t.value + 1 := by
  unfold take?
  split
  · simp; omega
  · simp [Semaphore.ext_iff]; omega

theorem post_eq_ok {s t : Semaphore} : s.post = .ok t ↔ s.value < slotLimit ∧ t.value = s.value + 1 := by
  unfold post
  split
  · simp [Semaphore.ext_iff]; omega
  · simp; omega

/-- A semaphore and the number of threads that wait for a unit of it. -/
structure Line where
  semaphore : Semaphore
  waiting : Nat := 0
  deriving DecidableEq, Repr, Inhabited

inductive Request where
  | wait
  | tryWait
  | post
  | value
  deriving DecidableEq, Repr

namespace Line

def serve? (l : Line) : Option Line :=
  if l.waiting = 0 then none
  else l.semaphore.take?.map fun s => ⟨s, l.waiting - 1⟩

def serveUpTo : Nat → Line → Line
  | 0, l => l
  | n + 1, l => match l.serve? with
    | some l' => serveUpTo n l'
    | none => l

/-- Serves waiting threads until none is left or the count is zero. -/
def settle (l : Line) : Line := serveUpTo l.waiting l

/-- Carries out a request; the result tells whether a unit was taken at once, where that was asked. -/
def request (l : Line) : Request → Line × Except Fault (Option Bool)
  | .wait => ({ l with waiting := l.waiting + 1 }, .ok none)
  | .tryWait => match l.semaphore.take? with
    | some s => ({ l with semaphore := s }, .ok (some true))
    | none => (l, .ok (some false))
  | .post => match l.semaphore.post with
    | .ok s => ({ l with semaphore := s }, .ok none)
    | .error f => (l, .error f)
  | .value => (l, .ok none)

end Line
end Semaphore
end Handover
