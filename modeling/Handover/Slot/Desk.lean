import Handover.Slot.Basic
/-!
# Desk — permits in hand and threads in line

The counters of free and filled places, with the permits that are held and the threads that wait for one.  A step lets
one waiting thread take its permit (`Desk.serve?`); a desk is settled when no such step is left, so that threads are
left waiting for a side only at the count zero (`Desk.settle`).

A holder that stops on a fault gives its permit back.  If the counter is full that is a second fault, which takes the
whole desk down: after that nobody is served and nothing that is asked is done.
-/
namespace Handover
namespace Slots

structure Desk where
  slots : Slots
  /-- Permits that are held, by the side they were taken from. -/
  held : Sides Nat := ⟨0, 0⟩
  waiting : Sides Nat := ⟨0, 0⟩
  halted : Bool := false
  deriving DecidableEq, Repr, Inhabited

inductive Use where
  | pass
  | giveBack
  | forget
  /-- Stops on a fault of its own, which gives the permit back. -/
  | abandon
  deriving DecidableEq, Repr

inductive Request where
  | acquire (side : Side)
  | use (how : Use) (side : Side)
  | release (side : Side)
  deriving DecidableEq, Repr

namespace Desk

/-- One waiting thread takes a permit of this side, if there is one. -/
def serve? (d : Desk) (side : Side) : Option Desk :=
  if d.halted ∨ d.waiting.get side = 0 then none
  else (d.slots.take? side).map fun s =>
    { d with
      slots := s
      held := d.held.set side (d.held.get side + 1)
      waiting := d.waiting.set side (d.waiting.get side - 1) }

def serveUpTo (side : Side) : Nat → Desk → Desk
  | 0, d => d
  | n + 1, d => match d.serve? side with
    | some d' => serveUpTo side n d'
    | none => d

/-- Serves waiting threads until each side has nobody waiting or nothing left. -/
def settle (d : Desk) : Desk :=
  let d := serveUpTo .free d.waiting.free d
  serveUpTo .filled d.waiting.filled d

/-- Stops on a fault with a permit in hand, which is given back. -/
def giveUp (d : Desk) (side : Side) (f : Fault) : Desk × Except Fault Bool :=
  match d.slots.post side with
  | .ok s => ({ d with slots := s }, .error f)
  | .error second => ({ d with halted := true }, .error second)

/-- Uses up a permit that is held; `false` tells that there was none. -/
def use (d : Desk) (how : Use) (side : Side) : Desk × Except Fault Bool :=
  if d.held.get side = 0 then
    (d, if how = .abandon then .error .holderFailed else .ok false)
  else
    let d := { d with held := d.held.set side (d.held.get side - 1) }
    match how with
    | .pass => match d.slots.post side.other with
      | .ok s => ({ d with slots := s }, .ok true)
      | .error f => d.giveUp side f
    | .giveBack => match d.slots.post side with
      | .ok s => ({ d with slots := s }, .ok true)
      | .error f => (d, .error f)
    | .forget => (d, .ok true)
    | .abandon => d.giveUp side .holderFailed

def carryOut (d : Desk) : Request → Desk × Except Fault Bool
  | .acquire side => ({ d with waiting := d.waiting.set side (d.waiting.get side + 1) }, .ok true)
  | .use how side => d.use how side
  | .release side => match d.slots.post side with
    | .ok s => ({ d with slots := s }, .ok true)
    | .error f => (d, .error f)

/-- Carries out a request, unless the desk is down; `false` tells that it was, or that no such permit was held. -/
def request (d : Desk) (r : Request) : Desk × Except Fault Bool :=
  if d.halted then (d, .ok false) else d.carryOut r

end Desk
end Slots
end Handover
