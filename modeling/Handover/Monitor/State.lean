import Handover.Buffer
import Handover.Event
import Handover.Config
/-!
# State — what the agents share

Everything that the one mutex of a run guards: the buffer, the counters, the phase, the two latches' flags (`start` for
the gate and `done` for the end), the verdict at the gate, whether the run failed, and the journal.
-/
namespace Handover

/-- Moves on to `target`, which must be the very next phase. -/
def Phase.advance (p target : Phase) : Except Fault Phase :=
  match p.next? with
  | none => .error .phaseOver
  | some next => if next = target then .ok target else .error (.phaseSkipped p next target)

theorem Phase.advance_eq_ok {p target q : Phase} : p.advance target = .ok q ↔ p.next? = some target ∧ q = target := by
  cases p <;> cases target <;> simp [advance, next?, eq_comm]

structure State where
  buffer : Buffer Item
  produced : Nat := 0
  consumed : Nat := 0
  phase : Phase := .running
  /-- The completion latch's flag: the last item was consumed, or the run failed. -/
  done : Bool := false
  start : Bool := false
  /-- The verdict at the gate: the agents are not to start. -/
  aborted : Bool := false
  failed : Bool := false
  /-- Events recorded so far, kept or not. -/
  events : Nat := 0
  keepJournal : Bool := true
  /-- The events that were kept, newest first. -/
  trail : List Event := []
  deriving DecidableEq, Repr, Inhabited

namespace State

def fresh (c : Config) : State := { buffer := .empty c.capacity, keepJournal := c.journal }

def journal (s : State) : List Event := s.trail.reverse

def isDone (s : State) : Bool := s.done && !s.failed

/-- The event that a state shows if something of this kind happens to this item now. -/
def eventNow (s : State) (kind : Kind) (item : Option Item) : Event where
  seq := s.events
  kind := kind
  producer := item.map Item.producer
  sequence := item.map Item.sequence
  value := item.map Item.value
  produced := s.produced
  consumed := s.consumed
  occupancy := s.buffer.len

end State
end Handover
