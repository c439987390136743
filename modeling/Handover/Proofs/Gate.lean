import Handover.Proofs.Release
/-!
# Gate — what the start gate tells

Opening the gate again changes its verdict, though it leaves no note of it.  So the gate tells whoever passes it what
the latest opening said (`System.play_verdict?`), and all are told the same only if no later opening contradicts the
first.  Nothing is asked of the monitor but that its gate was closed, and agents may stop on any faults.
-/
namespace Handover

/-- The verdict of the gate, once it is open. -/
def Monitor.verdict? (m : Monitor) : Option Bool := if m.state.start then some (!m.state.aborted) else none

theorem Monitor.SameGate.verdict?_eq {m m' : Monitor} (h : m.SameGate m') : m'.verdict? = m.verdict? := by
  unfold Monitor.verdict?
  rw [h.start, h.aborted]

namespace Agent

def isAtGate : Agent → Bool
  | producer _ .gate | consumer .gate | watcher _ .gate | starter none => true
  | _ => false

/-- Where an agent goes from the gate that tells it whether to proceed. -/
def told (quota : Nat) (proceed : Bool) : Agent → Agent
  | producer id .gate => producer id (if proceed then .upTo quota 0 else .finished 0)
  | consumer .gate => consumer (if proceed then .ready else .finished 0)
  | watcher id .gate => watcher id (if proceed then .waiting else .finished none)
  | starter none => starter (some proceed)
  | a => a

/-- **An agent waits at the closed gate, and at the open one it is told the verdict.** -/
theorem step_at_gate {m : Monitor} {a : Agent} (hgate : a.isAtGate = true) (hfailed : m.state.failed = false) :
    (a.step m).map Prod.fst = m.verdict?.map (a.told m.config.itemsPerProducer) := by
  have haway : m.turnsAway = m.state.aborted := by rw [Monitor.turnsAway, hfailed, Bool.or_false]
  unfold isAtGate at hgate
  split at hgate
  all_goals
    simp only [step, ProducerPlace.step, ConsumerPlace.step, WatcherPlace.step, Monitor.verdict?, haway]
    cases m.state.start <;> cases m.state.aborted <;> first | rfl | cases hgate

end Agent

namespace System

variable {s s' : System}

/-- What the openings of the gate said, in order. -/
def openings (moves : List Move) : List Bool :=
  moves.filterMap fun
    | .openGate proceed => some proceed
    | .agent _ => none

theorem move_verdict? {x : Move} (h : s.move x = some s') :
    s'.monitor.verdict? = (openings [x]).getLast?.or s.monitor.verdict? := by
  cases x with
  | openGate proceed =>
    obtain ⟨log, hact⟩ := s.act_openGate proceed
    cases h
    rw [hact]
    exact congrArg some (Bool.not_not proceed)
  | agent i =>
    obtain ⟨-, a, a', -, hstep, -⟩ := step_eq_some h
    exact (Agent.step_spends hstep).gate.verdict?_eq

/-- **The verdict is that of the latest opening.** -/
theorem play_verdict? : ∀ (moves : List Move) {s s' : System}, s.play moves = some s' →
    s'.monitor.verdict? = (openings moves).getLast?.or s.monitor.verdict?
  | [], s, s', h => by
    cases h
    rfl
  | x :: rest, s, s', h => by
    obtain ⟨s₁, hmove, hplay⟩ := Option.bind_eq_some_iff.1 h
    rw [play_verdict? rest hplay, move_verdict? hmove, ← Option.or_assoc, ← List.getLast?_append, openings, openings,
      ← List.filterMap_append]
    rfl

theorem step_agent_eq {i : Nat} {a : Agent} (hstanding : s.halted = false) (ha : s.agents[i]? = some a) :
    (s.step i).map (·.agents[i]?) = (a.step s.monitor).map (some ∘ Prod.fst) := by
  unfold System.step
  rw [if_neg (by rw [hstanding]; decide), ha, Option.map_map]
  refine congrArg (Option.map · _) (funext fun p => ?_)
  have hlt : i < s.agents.size := (Array.getElem?_eq_some_iff.1 ha).1
  simp [hlt]

/-- **The gate tells everybody what its latest opening said.**  Take any agents around a monitor whose gate is closed,
let the gate be opened any number of times, each time with any verdict, and the agents take their steps in between.  As
long as the run has not failed, the verdict is that of the latest opening.  Whoever is at the gate waits until there was
one, and is then told its verdict; so all are told what the first opening said if no later one contradicts it. -/
theorem gate_tells_latest_verdict {moves : List Move} (hclosed : s.monitor.state.start = false)
    (hplay : s.play moves = some s') (hstanding : s'.halted = false) (hfailed : s'.monitor.state.failed = false) :
    s'.monitor.verdict? = (openings moves).getLast? ∧
    ∀ (i : Nat) (a : Agent), s'.agents[i]? = some a → a.isAtGate = true →
      (s'.step i).map (·.agents[i]?) =
        (openings moves).getLast?.map (some ∘ a.told s'.monitor.config.itemsPerProducer) ∧
      ∀ first, first ∈ openings moves → (∀ proceed ∈ openings moves, proceed = first) →
        (s'.step i).map (·.agents[i]?) = some (some (a.told s'.monitor.config.itemsPerProducer first)) := by
  have hnone : s.monitor.verdict? = none := by
    unfold Monitor.verdict?
    rw [hclosed]
    rfl
  have hverdict : s'.monitor.verdict? = (openings moves).getLast? := by
    rw [play_verdict? moves hplay, hnone, Option.or_none]
  refine ⟨hverdict, fun i a ha hgate => ?_⟩
  have htold : (s'.step i).map (·.agents[i]?) =
      (openings moves).getLast?.map (some ∘ a.told s'.monitor.config.itemsPerProducer) := by
    rw [step_agent_eq hstanding ha, ← Option.map_map, Agent.step_at_gate hgate hfailed, Option.map_map, hverdict]
  refine ⟨htold, fun first hfirst hsame => ?_⟩
  have hlast := List.getLast?_eq_some_getLast (List.ne_nil_of_mem hfirst)
  rw [htold, hlast, hsame _ (List.getLast_mem _)]
  rfl

/-- The gate sends a starter away, is opened again and lets the consumer in; the producer that comes last is let in. -/
theorem gate_tells_latest_verdict_overruled :
    let s : System := {
      monitor := .fresh { capacity := 1, producers := 1, itemsPerProducer := 3 }
      agents := #[.starter none, .consumer .gate, .producer 0 .gate] }
    let moves : List Move := [.openGate false, .agent 0, .openGate true, .agent 1]
    ∃ s', s.monitor.state.start = false ∧ s.play moves = some s' ∧
      s'.halted = false ∧ s'.monitor.state.failed = false ∧
      s'.agents = #[.starter (some false), .consumer .ready, .producer 0 .gate] ∧
      s'.monitor.verdict? = some true ∧ (s'.step 2).map (·.agents[2]?) = some (some (.producer 0 (.ready 0))) := by
  intro s moves
  have hrun : (s.play moves).map (fun s' => ((s'.halted, s'.monitor.state.failed), s'.agents,
      s'.monitor.config.itemsPerProducer)) =
      some ((false, false), #[.starter (some false), .consumer .ready, .producer 0 .gate], 3) := by decide +kernel
  obtain ⟨s', hplay, hseen⟩ := Option.map_eq_some_iff.1 hrun
  simp only [Prod.mk.injEq] at hseen
  obtain ⟨⟨hstanding, hfailed⟩, hagents, hquota⟩ := hseen
  have hlast : s'.agents[2]? = some (.producer 0 .gate) := by rw [hagents]; rfl
  obtain ⟨hverdict, hgate⟩ := gate_tells_latest_verdict rfl hplay hstanding hfailed
  have htold := (hgate 2 _ hlast rfl).1
  rw [hquota] at htold
  exact ⟨s', rfl, hplay, hstanding, hfailed, hagents, hverdict, htold⟩

/-- **A second opening overrules the first**: of two that ask, the first is told to proceed and the second is not,
though the run has not failed; and the notes show one opening only. -/
theorem second_opening_overrules :
    let s : System := {
      monitor := .fresh { capacity := 1, producers := 1, itemsPerProducer := 1 }
      agents := #[.starter none, .starter none] }
    (s.play [.openGate true, .agent 0, .openGate false, .agent 1]).map
      (fun s' => (s'.agents, s'.monitor.state.failed, s'.monitor.notes)) =
        some (#[.starter (some true), .starter (some false)], false, [.gateOpened true]) := by
  decide +kernel

end System
end Handover
