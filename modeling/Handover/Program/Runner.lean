import Handover.Program.Job
import Handover.Run.Launch
import Handover.Trace.Write
/-!
# Runner — the program that runs

It runs producers, a consumer and watchers as its arguments say, verifies the report, and writes the journal to a file
if it is told to; the journal is kept only then.
-/
namespace Handover
namespace Program
namespace Runner

open CommandLine (Grammar Flag UsageError numberOf? pathOf?)

structure Args where
  capacity : Nat := 5
  producers : Nat := 2
  items : Nat := 10
  watchers : Nat := 1
  jitterUs : Option Nat := none
  trace : Option String := none
  deriving DecidableEq, Repr, Inhabited

def grammar : Grammar where
  program := "runner"
  about := "Bounded-buffer producer/consumer run"
  flags := [
    { long := "capacity", short := some 'c', about := "Number of buffer slots", preset := some 5 },
    { long := "producers", short := some 'p', about := "Number of producer threads", preset := some 2 },
    { long := "items", short := some 'n', about := "Items inserted by each producer", preset := some 10 },
    { long := "watchers", short := some 'w', about := "Number of watcher threads waiting for completion",
      preset := some 1 },
    { long := "jitter-us", about := "Upper bound in microseconds of a random pause before every slot acquire" },
    { long := "trace", reads := .path, about := "Write the event journal as CSV to this file" }]

def Args.parse (arguments : List String) : Except UsageError Args := do
  let given ← grammar.parse arguments
  let preset : Args := {}
  return {
    capacity := (numberOf? given "capacity").getD preset.capacity
    producers := (numberOf? given "producers").getD preset.producers
    items := (numberOf? given "items").getD preset.items
    watchers := (numberOf? given "watchers").getD preset.watchers
    jitterUs := numberOf? given "jitter-us"
    trace := pathOf? given "trace" }

/-- The size of the run; the journal is kept only if it is to be written. -/
def Args.config (a : Args) : Config where
  capacity := a.capacity
  producers := a.producers
  itemsPerProducer := a.items
  watchers := a.watchers
  jitter := a.jitterUs
  journal := a.trace.isSome

/-- The last line of a good run. -/
def closing (r : Report) : String :=
  s!"Run complete: {r.produced} produced, {r.consumed} consumed, {r.completions.length} watcher(s) notified\n"

def job (arguments : List String) : Job :=
  match Args.parse arguments with
  | .error e => .exit (misused e)
  | .ok args => match run args.config with
    | .error (.error e) => .exit (failure e.chain)
    | .error (.fault _) => .exit faulted
    | .error .stuck => .exit faulted
    | .ok report => match report.verify with
      | .error e => .exit (failure [e.message])
      | .ok () => match args.trace with
        | none => .exit (done (closing report))
        | some path => .write path (Trace.write report.journal) fun
          | .error e => failure [s!"writing trace to {path}", e.message]
          | .ok () => done (closing report)

end Runner
end Program
end Handover
