import Handover.Run.Report
/-!
# Launch — from a configuration to a report

A run first brings its agents in, one after the other: the consumer, the watchers, the producers.  Before each of them
come the hooks for it, actions on the monitor or a refusal to bring the agent in.  Then the gate opens: with all agents
there they start, after a refusal they leave at once.  When every agent has come back the run is judged: the producers
are looked at first, then the consumer, then the watchers, each in its order, and the first one that did not come back
well is the run's error.  Nobody looks at the agents after that one; if one of them stopped on a fault, so does the run.

`Run.launch` is a step of the one who does all this and `Run.step` a step of the run, either by that one or by an agent.
-/
namespace Handover

inductive HookStep where
  | refuse (cause : String)
  /-- Something is done to the monitor; what it answers is not looked at. -/
  | act (action : Action)
  deriving DecidableEq, Repr

structure Hook where
  before : AgentName
  step : HookStep
  deriving DecidableEq, Repr

def stepsBefore (hooks : List Hook) (name : AgentName) : List HookStep :=
  (hooks.filter (·.before = name)).map Hook.step

structure Refusal where
  name : AgentName
  cause : String
  deriving DecidableEq, Repr

/-- How far the one who launches the run has come. -/
inductive Launcher where
  /-- About to take these steps and then to bring in an agent. -/
  | preparing (steps : List HookStep) (name : AgentName)
  /-- About to open the gate, after a refusal or with all agents there. -/
  | opening (refusal : Option Refusal)
  | waiting (refusal : Option Refusal)
  deriving DecidableEq, Repr

structure Run where
  hooks : List Hook
  system : System
  launcher : Launcher
  deriving DecidableEq, Repr

inductive RunError where
  | config (cause : ConfigError)
  | refused (refusal : Refusal)
  | faulted (name : AgentName)
  | unnotified
  deriving DecidableEq, Repr

/-- The wording of an error and of its causes, from the outermost in. -/
def RunError.chain : RunError → List String
  | config cause => [cause.message]
  | refused r => [s!"failed to spawn {r.name.text}", r.cause]
  | faulted name => [s!"{name.text} thread panicked"]
  | unnotified => ["watcher exited without completion"]

/-- How a run may come out without a report. -/
inductive RunFailure where
  | error (e : RunError)
  | fault (f : Fault)
  /-- Not at all: some agent waits for good. -/
  | stuck
  deriving DecidableEq, Repr

namespace Run

/-- A run that is about to bring in its consumer, if a run of this size is possible. -/
def start (c : Config) (hooks : List Hook) : Except ConfigError Run := do
  let m ← Monitor.new c
  return {
    hooks := hooks
    system := { monitor := m.say (.starting c) }
    launcher := .preparing (stepsBefore hooks .consumer) .consumer }

/-- Does something to the monitor and does not look at the result. -/
def act {α : Type} (r : Run) (a : Act α) : Run := { r with system := (r.system.act a).1 }

/-- The next step of the one who launches the run, until it waits for the agents. -/
def launch (r : Run) : Option Run :=
  match r.launcher with
  | .preparing (.refuse cause :: _) name => some { r with launcher := .opening (some ⟨name, cause⟩) }
  | .preparing (.act action :: steps) name =>
    some { r.act action.perform with launcher := .preparing steps name }
  | .preparing [] name =>
    let r := { r with system := r.system.join (.atGate name) }
    match r.system.monitor.config.successor? name with
    | none => some { r.act (Act.say (.spawned r.system.agents.size)) with launcher := .opening none }
    | some next => some { r with launcher := .preparing (stepsBefore r.hooks next) next }
  | .opening refusal => some { r.act (Act.openGate refusal.isNone) with launcher := .waiting refusal }
  | .waiting _ => none

/-- A step of the run: of the launcher, or of agent `i`. -/
def step (r : Run) : Option Nat → Option Run
  | none => r.launch
  | some i => (r.system.step i).map fun s => { r with system := s }

def exec (r : Run) : List (Option Nat) → Option Run
  | [] => some r
  | i :: rest => (r.step i).bind (·.exec rest)

def launchBudget (r : Run) : Nat :=
  match r.launcher with
  | .preparing steps name => steps.length + r.system.monitor.config.countAfter name + r.hooks.length + 3
  | .opening _ => 1
  | .waiting _ => 0

/-- The agents go on until nobody can move, then the launcher takes a step, at most `n` times. -/
def proceed : Nat → Run → Run
  | 0, r => { r with system := r.system.settle }
  | n + 1, r =>
    let r := { r with system := r.system.settle }
    match r.launch with
    | some r' => proceed n r'
    | none => r

/-- Launches the run and lets it go on until nobody can move. -/
def complete (r : Run) : Run := proceed r.launchBudget r

def lookedAt (agents : List Agent) : List Agent :=
  agents.filter (fun a => a matches .producer _ _) ++ agents.filter (fun a => a matches .consumer _) ++
    agents.filter (fun a => a matches .watcher _ _)

def stoppedOnFault (a : Agent) : Bool := a.outcome? matches some (.fault _)

/-- Looks at agents that have come back: the watchers' reports, or the first error and the agents after it. -/
def judge : List Agent → Except (RunError × List Agent) (List Completion)
  | [] => .ok []
  | a :: rest => match a.outcome?, a.name? with
    | some (.fault _), some name => .error (.faulted name, rest)
    | some (.report none), _ => .error (.unnotified, rest)
    | some (.report (some c)), _ => (judge rest).map (c :: ·)
    | _, _ => judge rest

def producersDone (agents : List Agent) : Bool :=
  agents.all fun a => match a with
    | .producer _ (.finished _) => true
    | .producer _ _ => false
    | _ => true

/-- An error of the run, or its own fault if an agent that nobody looks at stopped on one. -/
def unlessUnattended (e : RunError) (rest : List Agent) : RunFailure :=
  if rest.any stoppedOnFault then .fault .unattended else .error e

/-- How the run came out, once the gate was opened and every agent has come back. -/
def result? (r : Run) : Option (Except RunFailure Report) :=
  let agents := r.system.agents.toList
  match r.launcher with
  | .waiting refusal =>
    if r.system.unfinished ≠ 0 then none
    else match refusal with
      | some refusal => some (.error (unlessUnattended (.refused refusal) agents))
      | none => match judge (lookedAt agents) with
        | .error (e, rest) => some (.error (unlessUnattended e rest))
        | .ok completions => some (.ok (.ofMonitor r.system.monitor completions))
  | _ => none

/-- The notes of the run, with the one that the producers came back. -/
def notes (r : Run) : List Note :=
  r.system.monitor.notes ++
    match r.launcher with
    | .waiting none => if producersDone r.system.agents.toList then [.producersJoined] else []
    | _ => []

def faults (r : Run) : List (AgentName × Fault) :=
  r.system.agents.toList.filterMap fun a => match a.outcome?, a.name? with
    | some (.fault f), some name => some (name, f)
    | _, _ => none

end Run

/-- Runs producers, the consumer and the watchers to the end. -/
def run (c : Config) : Except RunFailure Report :=
  match Run.start c [] with
  | .error e => .error (.error (.config e))
  | .ok r => r.complete.result?.getD (.error .stuck)

end Handover
