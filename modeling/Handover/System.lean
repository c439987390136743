import Handover.Agent.Step
import Handover.Monitor.Action
/-!
# System — agents around one monitor

A system is a monitor with the agents that use it.  `System.step` lets one agent take its next step; a schedule is the
list of agents that do (`System.exec`).  `System.settle` lets every agent in turn take a step for as long as one of
them can.  It comes to an end because each step uses up some of the system's `budget`, which bounds the steps of every
schedule: an item weighs as much before it is put in as the steps that move it in and out.

An agent that meets a second fault while it stops on a first one takes the whole system down: after that nobody moves.
-/
namespace Handover

namespace ProducerPlace

/-- A bound on the steps that a producer has left, those of moving its items out again included. -/
def budget (quota : Nat) : ProducerPlace → Nat
  | gate => 6 * quota + 12
  | ready n => 6 * (quota - n) + 11
  | holding n => 6 * (quota - n) + 10
  | moved n => 6 * (quota - n) + 6
  | stopping _ => 6
  | unwinding _ => 5
  | failing .mark _ => 4
  | failing .free _ => 3
  | failing .filled _ => 2
  | finished _ => 0
  | faulted _ => 0
  | crashed _ _ => 0

end ProducerPlace

namespace ConsumerPlace

/-- A bound on the steps that a consumer has left, apart from those that items pay for. -/
def budget : ConsumerPlace → Nat
  | gate => 9
  | ready => 8
  | holding => 7
  | moved _ => 9
  | stopping _ => 6
  | unwinding _ => 5
  | failing .mark _ => 4
  | failing .free _ => 3
  | failing .filled _ => 2
  | finished _ => 0
  | faulted _ => 0
  | crashed _ _ => 0

end ConsumerPlace

namespace WatcherPlace

def budget : WatcherPlace → Nat
  | gate => 6
  | waiting => 5
  | failing .mark _ => 4
  | failing .free _ => 3
  | failing .filled _ => 2
  | finished _ => 0
  | faulted _ => 0
  | crashed _ _ => 0

end WatcherPlace

namespace BreakerPlace

def budget : BreakerPlace → Nat
  | calling .mark => 3
  | calling .free => 2
  | calling .filled => 1
  | finished _ => 0
  | faulted _ => 0

end BreakerPlace

/-- A bound on the steps that an agent has left, apart from those that items in the buffer pay for. -/
def Agent.budget (quota : Nat) : Agent → Nat
  | producer _ place => place.budget quota
  | consumer place => place.budget
  | watcher _ place => place.budget
  | starter none => 1
  | starter (some _) => 0
  | finisher none => 1
  | finisher (some _) => 0
  | breaker place => place.budget

def Agent.budgets (quota : Nat) : List Agent → Nat
  | [] => 0
  | a :: rest => a.budget quota + budgets quota rest

structure System where
  monitor : Monitor
  agents : Array Agent := #[]
  /-- Whether an agent took the system down. -/
  halted : Bool := false
  deriving DecidableEq, Repr

namespace System

def join (s : System) (a : Agent) : System := { s with agents := s.agents.push a }

def step (s : System) (i : Nat) : Option System :=
  if s.halted then none
  else match s.agents[i]? with
    | none => none
    | some a => (a.step s.monitor).map fun (a', m) =>
      { monitor := m, agents := s.agents.setIfInBounds i a', halted := a'.isCrashed }

/-- The agents of the list take one step each, in this order. -/
def exec (s : System) : List Nat → Option System
  | [] => some s
  | i :: rest => (s.step i).bind (·.exec rest)

theorem exec_append (s : System) (l r : List Nat) : s.exec (l ++ r) = (s.exec l).bind (·.exec r) := by
  induction l generalizing s with
  | nil => rfl
  | cons i l ih =>
    rw [List.cons_append, exec, exec, Option.bind_assoc]
    cases s.step i with
    | none => rfl
    | some t => exact ih t

def budget (s : System) : Nat :=
  Agent.budgets s.monitor.config.itemsPerProducer s.agents.toList + 3 * s.monitor.state.buffer.len

/-- Every agent in turn takes a step if it can; `true` tells that one did. -/
def round (s : System) : System × Bool :=
  (List.range s.agents.size).foldl (fun (s, moved) i => match s.step i with
    | some s' => (s', true)
    | none => (s, moved)) (s, false)

/-- Goes round at most `n` times, as long as somebody moves. -/
def rounds : Nat → System → System
  | 0, s => s
  | n + 1, s => match s.round with
    | (s', true) => rounds n s'
    | (s', false) => s'

def settle (s : System) : System := rounds s.budget s

/-- Does something to the monitor from outside. -/
def act {α : Type} (s : System) (a : Act α) : System × Except Fault α :=
  match a s.monitor with
  | .ok result m => ({ s with monitor := m }, .ok result)
  | .error f m => ({ s with monitor := m }, .error f)

/-- The agents that have not come back. -/
def unfinished (s : System) : Nat := s.agents.toList.countP (·.outcome?.isNone)

end System
end Handover
