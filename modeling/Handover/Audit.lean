import Handover.Event
import Handover.Word
/-!
# Audit — is a journal consistent?

`check` reads a journal event by event.  Events are numbered from zero, counters and occupancy agree, the counters go up
by one with each item, an item is consumed after it was produced, each producer's items are consumed in their order, and
completion comes after the last item.  It answers with the totals, or with the first thing that is wrong.  It keeps the
items that were produced and not yet consumed (`pending`) and the next item of each producer that may be consumed
(`next`), nothing more.
-/
namespace Handover
namespace Audit

/-- The origin of an item: its maker and its place among its maker's items. -/
structure Origin where
  producer : Nat
  sequence : Nat
  deriving DecidableEq, Repr, Inhabited

def Origin.text (o : Origin) : String := s!"({o.producer}, {o.sequence})"

inductive EventError where
  | misnumbered (seq : Nat)
  | exceeds (consumed produced : Nat)
  | occupancy (occupancy : Nat)
  | overfull (occupancy capacity : Nat)
  | afterCompletion (kind : Kind)
  /-- The number of produced items does not go up by one, or the other one changes. -/
  | producedJump
  | consumedJump
  | noItem
  | wrongValue (value : Nat) (origin : Origin)
  | producedTwice (origin : Origin)
  | notPending (origin : Origin)
  /-- An earlier item of this producer was not consumed before. -/
  | outOfOrder (producer : Nat)
  | earlyCompletion
  deriving DecidableEq, Repr

inductive Finding where
  | event (index : Nat) (cause : EventError)
  | noCompletion
  | wrongTotal (expected consumed : Nat)
  deriving DecidableEq, Repr

def EventError.message (index : Nat) : EventError → String
  | misnumbered seq => s!"event {index} carries seq {seq}"
  | exceeds consumed produced => s!"event {index}: consumed {consumed} exceeds produced {produced}"
  | occupancy n => s!"event {index}: occupancy {n} does not match counters"
  | overfull n capacity => s!"event {index}: occupancy {n} exceeds capacity {capacity}"
  | afterCompletion kind => s!"event {index}: {kind.name} after completion"
  | producedJump => s!"event {index}: produced total does not advance by one"
  | consumedJump => s!"event {index}: consumed total does not advance by one"
  | noItem => s!"event {index}: item fields missing"
  | wrongValue value origin => s!"event {index}: value {value} does not match item {origin.text}"
  | producedTwice origin => s!"event {index}: item {origin.text} produced twice"
  | notPending origin => s!"event {index}: item {origin.text} was not in the buffer"
  | outOfOrder producer => s!"event {index}: producer {producer} consumed out of order"
  | earlyCompletion => s!"event {index}: completion before the last item was consumed"

def Finding.message : Finding → String
  | event index cause => cause.message index
  | noCompletion => "journal has no completion record"
  | wrongTotal expected consumed => s!"expected {expected} items, journal consumed {consumed}"

/-- Why a journal has no summary. -/
inductive Failure where
  | finding (f : Finding)
  /-- A number left 64 bits on the way. -/
  | fault (f : Fault)
  deriving DecidableEq, Repr

/-- The totals of a consistent journal. -/
structure Summary where
  produced : Nat := 0
  consumed : Nat := 0
  completions : Nat := 0
  producers : Nat := 0
  peakOccupancy : Nat := 0
  deriving DecidableEq, Repr, Inhabited

/-- What is known after some events. -/
structure Ledger where
  produced : Nat := 0
  consumed : Nat := 0
  completions : Nat := 0
  peak : Nat := 0
  pending : List Origin := []
  /-- For each producer whose items were consumed, the place of the next one. -/
  next : List (Nat × Nat) := []
  deriving DecidableEq, Repr, Inhabited

/-- Goes on if `holds`, and stops with this error otherwise. -/
def ensure (holds : Bool) (cause : EventError) (index : Nat) : Except Failure Unit :=
  if holds then .ok () else .error (.finding (.event index cause))

@[simp] theorem ensure_eq_ok {holds : Bool} {cause : EventError} {index : Nat} {u : Unit} :
    ensure holds cause index = .ok u ↔ holds = true := by
  unfold ensure
  split <;> simp_all

/-- A number that must not leave 64 bits. -/
def counted (n : Except Fault Nat) : Except Failure Nat := n.mapError .fault

/-- The origin of an event's item, which its value must tell as well. -/
def originOf (index : Nat) (e : Event) : Except Failure Origin :=
  match e.producer, e.sequence, e.value with
  | some producer, some sequence, some value => do
    let expected ← counted (Item.checkedValue producer sequence)
    ensure (value = expected) (.wrongValue value ⟨producer, sequence⟩) index
    return ⟨producer, sequence⟩
  | _, _, _ => .error (.finding (.event index .noItem))

namespace Ledger

def nextOf (l : Ledger) (producer : Nat) : Nat := (l.next.lookup producer).getD 0

def setNext (l : Ledger) (producer place : Nat) : List (Nat × Nat) :=
  (producer, place) :: l.next.filter (·.1 ≠ producer)

def enterProduced (l : Ledger) (index : Nat) (e : Event) : Except Failure Ledger := do
  let expected ← counted (Word.add l.produced 1)
  ensure (e.produced = expected && e.consumed = l.consumed) .producedJump index
  let origin ← originOf index e
  ensure (!l.pending.contains origin) (.producedTwice origin) index
  return { l with produced := e.produced, pending := origin :: l.pending }

def enterConsumed (l : Ledger) (index : Nat) (e : Event) : Except Failure Ledger := do
  let expected ← counted (Word.add l.consumed 1)
  ensure (e.consumed = expected && e.produced = l.produced) .consumedJump index
  let origin ← originOf index e
  ensure (l.pending.contains origin) (.notPending origin) index
  ensure (origin.sequence = l.nextOf origin.producer) (.outOfOrder origin.producer) index
  let place ← counted (Word.add origin.sequence 1)
  return { l with
    consumed := e.consumed
    pending := l.pending.erase origin
    next := l.setNext origin.producer place }

def enterCompleted (l : Ledger) (index : Nat) (e : Event) : Except Failure Ledger := do
  ensure (e.consumed = l.produced && l.pending.isEmpty) .earlyCompletion index
  return { l with completions := ← counted (Word.add l.completions 1) }

def enter (capacity : Option Nat) (l : Ledger) (index : Nat) (e : Event) : Except Failure Ledger := do
  ensure (e.seq = index) (.misnumbered e.seq) index
  ensure (e.consumed ≤ e.produced) (.exceeds e.consumed e.produced) index
  ensure (e.occupancy = (← counted (Word.sub e.produced e.consumed))) (.occupancy e.occupancy) index
  if let some capacity := capacity then
    ensure (e.occupancy ≤ capacity) (.overfull e.occupancy capacity) index
  let l := { l with peak := max l.peak e.occupancy }
  match e.kind with
  | .produced => do
    ensure (l.completions = 0) (.afterCompletion e.kind) index
    l.enterProduced index e
  | .consumed => do
    ensure (l.completions = 0) (.afterCompletion e.kind) index
    l.enterConsumed index e
  | .completed => l.enterCompleted index e

def enterAll (capacity : Option Nat) (l : Ledger) (index : Nat) : List Event → Except Failure Ledger
  | [] => .ok l
  | e :: rest => do enterAll capacity (← l.enter capacity index e) (index + 1) rest

/-- The totals, if the run came to its end with the expected number of items. -/
def close (l : Ledger) (total : Option Nat) : Except Failure Summary := do
  if l.completions = 0 then throw (.finding .noCompletion)
  if let some total := total then
    if l.consumed ≠ total then throw (.finding (.wrongTotal total l.consumed))
  return {
    produced := l.produced
    consumed := l.consumed
    completions := l.completions
    producers := l.next.length
    peakOccupancy := l.peak }

end Ledger

/-- The totals of a journal, or the first thing that is wrong with it; the buffer's capacity and the number of items
are checked if they are known. -/
def check (journal : List Event) (capacity total : Option Nat) : Except Failure Summary := do
  (← Ledger.enterAll capacity {} 0 journal).close total

end Audit
end Handover
