import Handover.Monitor.Basic
/-!
# Action — what can be done to a monitor from outside

Somebody who is not an agent of the run can open the gate, fail the run, use up permits, and do to the buffer and the
counters what agents do.  An action never waits: a permit that is not there is not taken.
-/
namespace Handover

inductive PermitUse where
  | pass
  | giveBack
  | forget
  deriving DecidableEq, Repr, Inhabited

/-- Something that can be done to a monitor from outside. -/
inductive Action where
  | openGate (proceed : Bool)
  | fail
  | use (how : PermitUse) (side : Side)
  | release (side : Side)
  | insert (producer sequence : Nat)
  | remove
  /-- Count a produced item, as one of so many or of all items of the run. -/
  | countProduced (total : Option Nat)
  | countConsumed
  | record (kind : Kind) (producer : Option Nat) (sequence : Nat)
  | complete
  deriving DecidableEq, Repr, Inhabited

inductive Reply where
  | none
  | flag (b : Bool)
  | number (n : Nat)
  | item (i : Item)
  | event (e : Event)
  /-- There was no permit to take, and nothing was done. -/
  | wouldBlock
  deriving DecidableEq, Repr

def Action.perform : Action → Act Reply
  | openGate proceed => do
    Act.openGate proceed
    return .none
  | fail => return .flag (← Act.fail)
  | use how side => do
    match (← get).take? side with
    | Option.none => return .wouldBlock
    | some m =>
      set m
      match how with
      | .pass => Act.pass side
      | .giveBack => Act.post side
      | .forget => pure ()
      return .none
  | release side => do
    Act.post side
    return .none
  | insert producer sequence => do
    Act.insert (← Act.lift (Item.make producer sequence))
    return .none
  | remove => return .item (← Act.remove)
  | countProduced total => do
    Act.countProduced (total.getD (← get).totalItems)
    return .none
  | countConsumed => return .number (← Act.countConsumed)
  | record kind producer sequence => do
    let item ← producer.mapM fun p => Act.lift (Item.make p sequence)
    return .event (← Act.record kind item)
  | complete => do
    Act.complete
    return .none

end Handover
