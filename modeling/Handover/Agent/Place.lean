import Handover.Monitor.Basic
/-!
# Place — where an agent stands

An agent's place says what it has left to do and what it holds.  Between two places lies one step that no other agent
can cut in two: passing the gate, taking a permit, the work under the mutex, passing a permit on or giving it back.

Producers and the consumer have the same round: take a permit, work under the mutex, pass the permit on.  An agent that
finds the run failed still holds its permit and gives it back (`stopping`).  An agent that stops on a fault gives its
permit back if it holds one (`unwinding`), and then fails the run (`failing`), so that nobody waits for it.
-/
namespace Handover

/-- What a call that fails the run is about to do: mark the run, add a free place, add a filled one. -/
inductive FailStage where
  | mark
  | free
  | filled
  deriving DecidableEq, Repr, Inhabited

inductive FailProgress where
  | next (stage : FailStage)
  /-- The call is over; `true` tells that it was the first one. -/
  | over (first : Bool)
  deriving DecidableEq, Repr, Inhabited

def FailStage.step : FailStage → Act FailProgress
  | mark => return if ← Act.markFailed then .next .free else .over false
  | free => do
    Act.post .free
    return .next .filled
  | filled => do
    Act.post .filled
    return .over true

/-- Where a producer stands.  In a round `n` is the item's place, counted from zero: the item is still to be put in
while the producer is `ready` and `holding`, and is in once it has `moved`.  A producer that is `stopping` or `finished`
knows how many items it put in, and one that met a second fault while it stopped on a first has `crashed`. -/
inductive ProducerPlace where
  | gate
  | ready (n : Nat)
  | holding (n : Nat)
  | moved (n : Nat)
  | stopping (n : Nat)
  | unwinding (fault : Fault)
  | failing (stage : FailStage) (fault : Fault)
  | finished (n : Nat)
  | faulted (fault : Fault)
  | crashed (first second : Fault)
  deriving DecidableEq, Repr, Inhabited

/-- Where a consumer stands.  One that has taken out the last item knows how many there were. -/
inductive ConsumerPlace where
  | gate
  | ready
  | holding
  | moved (last : Option Nat)
  | stopping (n : Nat)
  | unwinding (fault : Fault)
  | failing (stage : FailStage) (fault : Fault)
  | finished (n : Nat)
  | faulted (fault : Fault)
  | crashed (first second : Fault)
  deriving DecidableEq, Repr, Inhabited

structure Completion where
  watcher : Nat
  totalItems : Nat
  seq : Nat
  deriving DecidableEq, Repr, Inhabited

inductive WatcherPlace where
  | gate
  | waiting
  | failing (stage : FailStage) (fault : Fault)
  /-- Has come back, with a report unless the run was aborted or failed. -/
  | finished (report : Option Completion)
  | faulted (fault : Fault)
  | crashed (first second : Fault)
  deriving DecidableEq, Repr, Inhabited

/-- Where somebody from outside stands who fails the run. -/
inductive BreakerPlace where
  | calling (stage : FailStage)
  | finished (first : Bool)
  | faulted (fault : Fault)
  deriving DecidableEq, Repr, Inhabited

end Handover
