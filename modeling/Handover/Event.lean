import Handover.Item
/-!
# Event — what happened, in numbers

An event tells that an item was produced, that an item was consumed, or that a watcher saw the end.  It carries its
number in the journal, the item it is about, and the counters and the occupancy of the buffer right after it.
-/
namespace Handover

inductive Kind where
  | produced
  | consumed
  | completed
  deriving DecidableEq, Repr, Inhabited

/-- The kind as messages spell it, and as it is read from a trace. -/
def Kind.name : Kind → String
  | produced => "Produced"
  | consumed => "Consumed"
  | completed => "Completed"

def Kind.all : List Kind := [.produced, .consumed, .completed]

def Kind.ofName? (name : String) : Option Kind := Kind.all.find? (·.name = name)

@[simp] theorem Kind.ofName?_name (k : Kind) : Kind.ofName? k.name = some k := by
  cases k <;> rfl

structure Event where
  /-- The number of events before this one. -/
  seq : Nat
  kind : Kind
  producer : Option Nat := none
  /-- The item's place among its maker's items. -/
  sequence : Option Nat := none
  value : Option Nat := none
  produced : Nat
  consumed : Nat
  occupancy : Nat
  deriving DecidableEq, Repr, Inhabited

namespace Event

/-- The item, if every part of it is there. -/
def item? (e : Event) : Option Item := do
  return ⟨← e.producer, ← e.sequence, ← e.value⟩

/-- The event as one line of text; a part of the item that is not there counts as zero. -/
def text (e : Event) : String :=
  let value := e.value.getD 0
  match e.kind with
  | .produced => s!"[P{e.producer.getD 0}] produce {value}   (total={e.produced})"
  | .consumed => s!"[C] consume {value}   (total={e.consumed})"
  | .completed => s!"[Watcher] all {e.consumed} items have been produced & consumed"

end Event
end Handover
