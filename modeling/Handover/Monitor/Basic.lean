import Handover.Monitor.State
import Handover.Monitor.Note
import Handover.Slot.Basic
/-!
# Monitor — the meeting place of a run

A monitor holds the shared state, the counters of free and filled places, and the notes of a run.  `Act` is what can be
done to it: an act ends with a result or with a fault, and either way with the monitor as it then is, so what was done
before a fault stays done.  Each act below is done by one agent that holds the mutex, except for those on the counters,
which need no mutex.
-/
namespace Handover

/-- The meeting place of a run. -/
structure Monitor where
  config : Config
  state : State
  slots : Slots
  /-- The notes so far, newest first. -/
  log : List Note := []
  deriving DecidableEq, Repr

abbrev Act := EStateM Fault Monitor

namespace Monitor

def fresh (c : Config) : Monitor where
  config := c
  state := .fresh c
  slots := .ofCapacity c.capacity

/-- The monitor of a run that has not begun, if such a run is possible. -/
def new (c : Config) : Except ConfigError Monitor := do
  c.validate
  return fresh c

def totalItems (m : Monitor) : Nat := m.config.totalItems

def say (m : Monitor) (n : Note) : Monitor := { m with log := n :: m.log }

def notes (m : Monitor) : List Note := m.log.reverse

def take? (m : Monitor) (side : Side) : Option Monitor :=
  (m.slots.take? side).map fun s => { m with slots := s }

end Monitor

namespace Act

/-- A result or a fault that leaves the monitor alone. -/
def lift {α : Type} : Except Fault α → Act α
  | .ok a => pure a
  | .error f => throw f

def state : Act State := return (← get).state

def setState (s : State) : Act Unit := modify fun m => { m with state := s }

def say (n : Note) : Act Unit := modify fun m => m.say n

def post (side : Side) : Act Unit := do
  let slots ← lift ((← get).slots.post side)
  modify fun m => { m with slots := slots }

def pass (side : Side) : Act Unit := do
  let (slots, outcome) := (← get).slots.pass side
  modify fun m => { m with slots := slots }
  lift outcome

def insert (item : Item) : Act Unit := do
  let s ← state
  setState { s with buffer := ← lift (s.buffer.insert item) }

def remove : Act Item := do
  let s ← state
  let (item, buffer) ← lift s.buffer.remove
  setState { s with buffer := buffer }
  return item

def advance (target : Phase) : Act Unit := do
  let s ← state
  let phase ← lift (s.phase.advance target)
  say (.phaseChanged s.phase phase)
  setState { s with phase := phase }

/-- Counts a produced item; with the last of `total` the run starts to drain. -/
def countProduced (total : Nat) : Act Unit := do
  let s ← state
  let produced ← lift (Word.add s.produced 1)
  setState { s with produced := produced }
  if produced = total then advance .draining

/-- Counts a consumed item, which must have been produced before, and returns the new count. -/
def countConsumed : Act Nat := do
  let s ← state
  let consumed ← lift (Word.add s.consumed 1)
  setState { s with consumed := consumed }
  if consumed ≤ s.produced then return consumed
  else throw (.overconsumed consumed s.produced)

/-- Records an event, and keeps it if events are kept. -/
def record (kind : Kind) (item : Option Item) : Act Event := do
  let s ← state
  let event := s.eventNow kind item
  let events ← lift (Word.add s.events 1)
  setState { s with
    events := events
    trail := if s.keepJournal then event :: s.trail else s.trail }
  return event

/-- Opens the start gate with a verdict: the agents are to start, or to leave at once. -/
def openGate (proceed : Bool) : Act Unit := do
  let s ← state
  setState { s with aborted := !proceed, start := true }
  unless s.start do say (.gateOpened proceed)

/-- Announces the end of the run and opens the completion latch, which must be closed. -/
def complete : Act Unit := do
  let total := (← get).totalItems
  let s ← state
  unless s.consumed = total do throw (.incomplete s.consumed total)
  advance .complete
  let s ← state
  if s.done then throw .completedTwice
  setState { s with done := true }

/-- Marks the run as failed and opens the completion latch; `false` tells that the run had failed before. -/
def markFailed : Act Bool := do
  let s ← state
  if s.failed then return false
  setState { s with failed := true, done := true }
  say (.failed s.produced s.consumed)
  return true

/-- Fails the run: marks it, then adds one place to each side, so that an agent that waits for one finds it, sees the
failure, and gives the place back for the next. -/
def fail : Act Bool := do
  if ← markFailed then
    post .free
    post .filled
    return true
  else return false

/-- Hands an item in: the buffer takes it, the count goes up, the event is recorded. -/
def handIn (item : Item) : Act Unit := do
  insert item
  countProduced (← get).totalItems
  say (.moved (← record .produced (some item)))

/-- Takes an item out: the buffer gives it, the count goes up, the event is recorded, and with the last item the end is
announced; then the count is returned. -/
def takeOut : Act (Option Nat) := do
  let item ← remove
  let consumed ← countConsumed
  say (.moved (← record .consumed (some item)))
  if consumed = (← get).totalItems then
    complete
    return some consumed
  else return none

end Act
end Handover
