import Handover.System
/-!
# Report — how a run ended

A run that ended well has a report: the counters, the phase, what the watchers reported, the places left on each side
and the journal.  `Report.verify` checks that every item went all the way and that no filled place is left.
-/
namespace Handover

structure Report where
  totalItems : Nat
  produced : Nat
  consumed : Nat
  phase : Phase
  /-- The watchers' reports, in the watchers' order. -/
  completions : List Completion
  permits : Sides Nat
  journal : List Event
  deriving DecidableEq, Repr

inductive ReportError where
  | unbalanced (produced consumed total : Nat)
  | leftBehind (filled : Nat)
  deriving DecidableEq, Repr

def ReportError.message : ReportError → String
  | unbalanced produced consumed total => s!"run ended with {produced} produced and {consumed} consumed of {total}"
  | leftBehind filled => s!"{filled} filled slots left behind"

namespace Report

/-- The report of a monitor whose agents have come back, with what the watchers reported. -/
def ofMonitor (m : Monitor) (completions : List Completion) : Report where
  totalItems := m.totalItems
  produced := m.state.produced
  consumed := m.state.consumed
  phase := m.state.phase
  completions := completions
  permits := ⟨m.slots.free.value, m.slots.filled.value⟩
  journal := m.state.journal

/-- Every item was produced and consumed, and no filled place is left. -/
def verify (r : Report) : Except ReportError Unit :=
  if r.produced ≠ r.totalItems ∨ r.consumed ≠ r.totalItems then
    .error (.unbalanced r.produced r.consumed r.totalItems)
  else if r.permits.filled ≠ 0 then .error (.leftBehind r.permits.filled)
  else .ok ()

/-- The values of one producer's items in the order in which they were consumed. -/
def consumedValues (r : Report) (producer : Nat) : List Nat :=
  r.journal.filterMap fun e =>
    if e.kind = .consumed ∧ e.producer = some producer then e.value else none

end Report
end Handover
