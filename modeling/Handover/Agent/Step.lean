import Handover.Agent.Place
/-!
# Step — what an agent does next

`Agent.step` is the whole behaviour of an agent: its next place and the monitor after the step, or `none` while it has
to wait or has nothing left to do.  An agent waits at the gate until the gate is open, for a permit until its counter
is positive, and at the completion latch until its flag is set; nothing else makes it wait.
-/
namespace Handover

namespace Monitor

/-- The agents at the open gate are to leave at once. -/
def turnsAway (m : Monitor) : Bool := m.state.aborted || m.state.failed

end Monitor

/-- One step of a call that fails the run, made by an agent that stopped on a fault.  A fault of the call itself is the
agent's second one. -/
def FailStage.stepAfter {π : Type} (stage : FailStage) (failing : FailStage → π) (faulted : π) (crashed : Fault → π)
    (m : Monitor) : π × Monitor :=
  match stage.step m with
  | .ok (.next stage') m' => (failing stage', m')
  | .ok (.over _) m' => (faulted, m')
  | .error second m' => (crashed second, m')

namespace ProducerPlace

/-- About to start on item `n`, or back when the quota is met. -/
def upTo (quota n : Nat) : ProducerPlace := if n < quota then ready n else finished quota

def step (id : Nat) (place : ProducerPlace) (m : Monitor) : Option (ProducerPlace × Monitor) :=
  match place with
  | gate =>
    if m.state.start then
      if m.turnsAway then some (finished 0, m.say (.startAborted (.producer id)))
      else some (upTo m.config.itemsPerProducer 0, m)
    else none
  | ready n => match Item.make id n with
    | .error f => some (failing .mark f, m)
    | .ok _ => (m.take? .free).map fun m' => (holding n, m')
  | holding n =>
    if m.state.failed then some (stopping n, m.say (.producerStopped id n))
    else match Act.handIn (.of id n) m with
      | .ok _ m' => some (moved n, m')
      | .error f m' => some (unwinding f, m')
  | moved n => match m.slots.post .filled with
    | .ok s => some (upTo m.config.itemsPerProducer (n + 1), { m with slots := s })
    | .error f => some (unwinding f, m)
  | stopping n => match m.slots.post .free with
    | .ok s => some (finished n, { m with slots := s })
    | .error f => some (failing .mark f, m)
  | unwinding f => match m.slots.post .free with
    | .ok s => some (failing .mark f, { m with slots := s })
    | .error second => some (crashed f second, m)
  | failing stage f => some (stage.stepAfter (failing · f) (faulted f) (crashed f) m)
  | finished _ => none
  | faulted _ => none
  | crashed _ _ => none

end ProducerPlace

namespace ConsumerPlace

def step (place : ConsumerPlace) (m : Monitor) : Option (ConsumerPlace × Monitor) :=
  match place with
  | gate =>
    if m.state.start then
      if m.turnsAway then some (finished 0, m.say (.startAborted .consumer))
      else some (ready, m)
    else none
  | ready => (m.take? .filled).map fun m' => (holding, m')
  | holding =>
    if m.state.failed then some (stopping m.state.consumed, m.say (.consumerStopped m.state.consumed))
    else match Act.takeOut m with
      | .ok last m' => some (moved last, m')
      | .error f m' => some (unwinding f, m')
  | moved last => match m.slots.post .free with
    | .ok s => some (last.elim ready finished, { m with slots := s })
    | .error f => some (unwinding f, m)
  | stopping n => match m.slots.post .filled with
    | .ok s => some (finished n, { m with slots := s })
    | .error f => some (failing .mark f, m)
  | unwinding f => match m.slots.post .filled with
    | .ok s => some (failing .mark f, { m with slots := s })
    | .error second => some (crashed f second, m)
  | failing stage f => some (stage.stepAfter (failing · f) (faulted f) (crashed f) m)
  | finished _ => none
  | faulted _ => none
  | crashed _ _ => none

end ConsumerPlace

/-- A watcher records that it saw the end and reports it. -/
def Act.announce (watcher : Nat) : Act Completion := do
  let event ← record .completed none
  say (.notified event watcher)
  return ⟨watcher, (← state).consumed, event.seq⟩

namespace WatcherPlace

def step (id : Nat) (place : WatcherPlace) (m : Monitor) : Option (WatcherPlace × Monitor) :=
  match place with
  | gate =>
    if m.state.start then
      if m.turnsAway then some (finished none, m.say (.startAborted (.watcher id)))
      else some (waiting, m)
    else none
  | waiting =>
    if m.state.done then
      if m.state.failed then some (finished none, m.say (.watcherStopped id))
      else match Act.announce id m with
        | .ok report m' => some (finished (some report), m')
        | .error f m' => some (failing .mark f, m')
    else none
  | failing stage f => some (stage.stepAfter (failing · f) (faulted f) (crashed f) m)
  | finished _ => none
  | faulted _ => none
  | crashed _ _ => none

end WatcherPlace

namespace BreakerPlace

def step (place : BreakerPlace) (m : Monitor) : Option (BreakerPlace × Monitor) :=
  match place with
  | calling stage => match stage.step m with
    | .ok (.next stage') m' => some (calling stage', m')
    | .ok (.over first) m' => some (finished first, m')
    | .error f m' => some (faulted f, m')
  | finished _ => none
  | faulted _ => none

end BreakerPlace

inductive Agent where
  | producer (id : Nat) (place : ProducerPlace)
  | consumer (place : ConsumerPlace)
  | watcher (id : Nat) (place : WatcherPlace)
  | starter (verdict : Option Bool)
  /-- Waits for the end and tells whether the run was done and whether it failed. -/
  | finisher (found : Option (Bool × Bool))
  | breaker (place : BreakerPlace)
  deriving DecidableEq, Repr

inductive Outcome where
  | count (n : Nat)
  | report (r : Option Completion)
  | verdict (proceed : Bool)
  | found (done failed : Bool)
  | broke (first : Bool)
  | fault (f : Fault)
  deriving DecidableEq, Repr

namespace Agent

def step (a : Agent) (m : Monitor) : Option (Agent × Monitor) :=
  match a with
  | producer id place => (place.step id m).map fun (p, m') => (producer id p, m')
  | consumer place => (place.step m).map fun (p, m') => (consumer p, m')
  | watcher id place => (place.step id m).map fun (p, m') => (watcher id p, m')
  | starter none => if m.state.start then some (starter (some (!m.turnsAway)), m) else none
  | starter (some _) => none
  | finisher none =>
    if m.state.done then some (finisher (some (m.state.isDone, m.state.failed)), m) else none
  | finisher (some _) => none
  | breaker place => (place.step m).map fun (p, m') => (breaker p, m')

def outcome? : Agent → Option Outcome
  | producer _ (.finished n) => some (.count n)
  | producer _ (.faulted f) => some (.fault f)
  | producer _ _ => none
  | consumer (.finished n) => some (.count n)
  | consumer (.faulted f) => some (.fault f)
  | consumer _ => none
  | watcher _ (.finished r) => some (.report r)
  | watcher _ (.faulted f) => some (.fault f)
  | watcher _ _ => none
  | starter v => v.map .verdict
  | finisher v => v.map fun (done, failed) => .found done failed
  | breaker (.finished first) => some (.broke first)
  | breaker (.faulted f) => some (.fault f)
  | breaker _ => none

/-- An agent that met a second fault while it stopped on a first one. -/
def isCrashed : Agent → Bool
  | producer _ (.crashed _ _) => true
  | consumer (.crashed _ _) => true
  | watcher _ (.crashed _ _) => true
  | _ => false

/-- The agent of a run with this name, at the gate. -/
def atGate : AgentName → Agent
  | .producer id => producer id .gate
  | .consumer => consumer .gate
  | .watcher id => watcher id .gate

def name? : Agent → Option AgentName
  | producer id _ => some (.producer id)
  | consumer _ => some .consumer
  | watcher id _ => some (.watcher id)
  | _ => none

end Agent
end Handover
