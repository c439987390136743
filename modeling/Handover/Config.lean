import Handover.Word
/-!
# Config — the size of a run

How many cells the buffer has, how many producers and watchers take part, how many items each producer makes, and
whether the events are kept.  `Config.validate` names the first thing that makes a run impossible.
-/
namespace Handover

structure Config where
  capacity : Nat := 5
  producers : Nat := 2
  itemsPerProducer : Nat := 10
  watchers : Nat := 1
  /-- Longest pause in microseconds before a slot is taken, if there are pauses at all. -/
  jitter : Option Nat := none
  journal : Bool := true
  deriving DecidableEq, Repr, Inhabited

inductive ConfigError where
  | noCapacity
  | capacityTooLarge (capacity : Nat)
  | noProducer
  | noItem
  | noWatcher
  | tooManyItems
  deriving DecidableEq, Repr

/-- The largest number of slots that can be counted. -/
def slotLimit : Nat := 2147483647

def ConfigError.message : ConfigError → String
  | noCapacity => "capacity must be at least 1"
  | capacityTooLarge capacity => s!"capacity {capacity} exceeds {slotLimit}"
  | noProducer => "at least one producer is required"
  | noItem => "every producer must produce at least one item"
  | noWatcher => "at least one watcher is required"
  | tooManyItems => "total item count overflows"

namespace Config

/-- All items of the run; a number past 64 bits counts as the largest one that fits. -/
def totalItems (c : Config) : Nat := Word.mulCapped c.producers c.itemsPerProducer

/-- Refuses a run that is impossible, for the first reason in this order. -/
def validate (c : Config) : Except ConfigError Unit :=
  if c.capacity = 0 then .error .noCapacity
  else if slotLimit < c.capacity then .error (.capacityTooLarge c.capacity)
  else if c.producers = 0 then .error .noProducer
  else if c.itemsPerProducer = 0 then .error .noItem
  else if c.watchers = 0 then .error .noWatcher
  else if Word.limit ≤ c.producers * c.itemsPerProducer then .error .tooManyItems
  else .ok ()

/-- **The runs that are possible.** -/
theorem validate_eq_ok {c : Config} :
    c.validate = .ok () ↔ 0 < c.capacity ∧ c.capacity ≤ slotLimit ∧ 0 < c.producers ∧ 0 < c.itemsPerProducer ∧
      0 < c.watchers ∧ c.producers * c.itemsPerProducer < Word.limit := by
  unfold validate
  repeat' split
  all_goals (simp; omega)

/-- In a run that is possible the number of items is the exact product. -/
theorem totalItems_of_validate {c : Config} (h : c.validate = .ok ()) :
    c.totalItems = c.producers * c.itemsPerProducer := by
  unfold totalItems Word.mulCapped
  rw [if_pos (validate_eq_ok.1 h).2.2.2.2.2]

end Config
end Handover
