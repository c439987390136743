import Handover.Audit
import Handover.Program.Job
import Handover.Trace.Read
/-!
# Checker — the program that checks

It reads a trace, checks that the journal in it is consistent, and prints the totals.
-/
namespace Handover
namespace Program
namespace Checker

open CommandLine (Grammar Flag UsageError numberOf? pathOf?)

structure Args where
  trace : String
  capacity : Option Nat := none
  total : Option Nat := none
  deriving DecidableEq, Repr, Inhabited

def grammar : Grammar where
  program := "checker"
  about := "Verifies an event journal written by `runner --trace`"
  operand := some { name := "TRACE", about := "CSV journal" }
  flags := [
    { long := "capacity", short := some 'c',
      about := "Buffer capacity of the run, enables the occupancy bound check" },
    { long := "total", short := some 't', about := "Expected number of items of the run" }]

def Args.parse (arguments : List String) : Except UsageError Args := do
  let given ← grammar.parse arguments
  return {
    trace := (pathOf? given "TRACE").getD ""
    capacity := numberOf? given "capacity"
    total := numberOf? given "total" }

inductive LoadError where
  | file (path : String) (cause : FileError)
  | content (cause : Trace.Error)
  deriving DecidableEq, Repr

/-- The wording of an error and of its causes, from the outermost in. -/
def LoadError.chain : LoadError → List String
  | file path cause => [s!"opening {path}", cause.message]
  | content cause => [cause.message]

/-- The events of the trace in a file. -/
def load (path : String) : Except FileError (List UInt8) → Except LoadError (List Event)
  | .error e => .error (.file path e)
  | .ok bytes => (Trace.read bytes).mapError .content

def summaryText (events : Nat) (s : Audit.Summary) : String :=
  "--- Summary ---\n\n" ++
    s!"events:          {events}\n" ++
    s!"producers:       {s.producers}\n" ++
    s!"produced:        {s.produced}\n" ++
    s!"consumed:        {s.consumed}\n" ++
    s!"peak occupancy:  {s.peakOccupancy}\n" ++
    s!"completions:     {s.completions}\n\n" ++
    "journal is consistent\n"

def job (arguments : List String) : Job :=
  match Args.parse arguments with
  | .error e => .exit (misused e)
  | .ok args => .read args.trace fun content => match load args.trace content with
    | .error e => failure e.chain
    | .ok journal => match Audit.check journal args.capacity args.total with
      | .error (.finding f) => failure [f.message]
      | .error (.fault _) => faulted
      | .ok summary => done (summaryText journal.length summary)

end Checker
end Program
end Handover
