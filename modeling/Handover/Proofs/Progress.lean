import Handover.Proofs.Budget
import Handover.Proofs.Underway
/-!
# Progress — a run that nobody fails comes to its end

An agent waits for three things only: the gate, a place on its side, and the end of the run (`Agent.canMove`).  In a run
that nobody fails they cannot all wait.  If the consumer waits for an item, the ring is empty and every permit is back,
so a producer that is not done could go on; and if all producers are done, so is the consumer.  Each step lowers a bound
that depends on the configuration alone, so every schedule that cannot be continued ends with all agents back.
-/
namespace Handover

/-! ## What an agent waits for -/

theorem Monitor.take?_isSome (m : Monitor) (side : Side) :
    (m.take? side).isSome = decide (0 < (m.slots.get side).value) := by
  unfold Monitor.take?
  rw [Option.isSome_map]
  by_cases h : 0 < (m.slots.get side).value
  · rw [Slots.take?_isSome h, decide_eq_true h]
  · rw [decide_eq_false h]
    cases ht : m.slots.take? side with
    | none => rfl
    | some s =>
      have := (Slots.take?_values ht).1
      omega

namespace Agent

/-- The agent waits for nothing: not for the gate, not for a place on its side, not for the end, and it is not back. -/
def canMove (m : Monitor) : Agent → Bool
  | producer _ .gate | consumer .gate | watcher _ .gate => m.state.start
  | producer _ (.ready _) => decide (0 < m.slots.free.value)
  | consumer .ready => decide (0 < m.slots.filled.value)
  | watcher _ .waiting => m.state.done
  | a => a.outcome?.isNone

/-- **A safe agent has a next step exactly if it waits for nothing.** -/
theorem step_isSome {m : Monitor} {a : Agent} (hsafe : a.Safe m) : (a.step m).isSome = a.canMove m := by
  cases a with
  | producer id place =>
    rw [Agent.step, Option.isSome_map]
    cases place with
    | gate => cases hstart : m.state.start <;> cases haway : m.turnsAway <;> simp [ProducerPlace.step, canMove, *]
    | ready n =>
      rw [ProducerPlace.step, Item.make_eq_ok.2 ⟨hsafe, rfl⟩]
      exact Option.isSome_map.trans (m.take?_isSome .free)
    | holding n =>
      simp only [ProducerPlace.step]
      split
      · rfl
      · split <;> rfl
    | moved n =>
      simp only [ProducerPlace.step]
      split <;> rfl
    | stopping n =>
      simp only [ProducerPlace.step]
      split <;> rfl
    | finished n => rfl
    | unwinding | failing | faulted | crashed => exact hsafe.elim
  | consumer place =>
    rw [Agent.step, Option.isSome_map]
    cases place with
    | gate => cases hstart : m.state.start <;> cases haway : m.turnsAway <;> simp [ConsumerPlace.step, canMove, *]
    | ready => exact Option.isSome_map.trans (m.take?_isSome .filled)
    | holding =>
      simp only [ConsumerPlace.step]
      split
      · rfl
      · split <;> rfl
    | moved last =>
      simp only [ConsumerPlace.step]
      split <;> rfl
    | stopping n =>
      simp only [ConsumerPlace.step]
      split <;> rfl
    | finished n => rfl
    | unwinding | failing | faulted | crashed => exact hsafe.elim
  | watcher id place =>
    rw [Agent.step, Option.isSome_map]
    cases place with
    | gate => cases hstart : m.state.start <;> cases haway : m.turnsAway <;> simp [WatcherPlace.step, canMove, *]
    | waiting =>
      simp only [WatcherPlace.step]
      split
      · rename_i hdone
        change _ = m.state.done
        rw [hdone]
        split
        · rfl
        · split <;> rfl
      · rename_i hdone
        exact (Bool.eq_false_iff.2 hdone).symm
    | finished r => rfl
    | failing | faulted | crashed => exact hsafe.elim
  | breaker place =>
    rw [Agent.step, Option.isSome_map]
    cases place with
    | calling stage =>
      simp only [BreakerPlace.step]
      split <;> rfl
    | finished first => rfl
    | faulted f => exact hsafe.elim
  | starter | finisher => exact hsafe.elim

/-- **The agent is back from a run in which nothing went wrong**, with all its work done. -/
inductive Returned (c : Config) : Agent → Prop where
  | producer (id : Nat) : Returned c (.producer id (.finished c.itemsPerProducer))
  | consumer : Returned c (.consumer (.finished c.totalItems))
  | watcher (id seq : Nat) : Returned c (.watcher id (.finished (some ⟨id, c.totalItems, seq⟩)))

theorem Returned.outcome?_eq {c : Config} {a : Agent} (h : a.Returned c) : a.outcome?.isNone = false := by
  cases h <;> rfl

theorem Returned.out_eq {c : Config} {a : Agent} (h : a.Returned c) (side : Side) : a.out side = 0 := by
  cases h <;> cases side <;> rfl

/-- Who is back from a run that was not failed and not aborted has done all its work. -/
theorem Stands.returned {c : Config} {s : State} {a : Agent} (h : a.Stands c s) (haborted : s.aborted = false)
    (hf : s.failed = false) (hwhole : a.isFaulty = false) (hmember : a.isBreaker = false)
    (hback : a.outcome?.isNone = false) : a.Returned c := by
  have hno : ¬ (s.aborted = true ∨ s.failed = true) := by simp [haborted, hf]
  cases a with
  | producer id place =>
    cases place with
    | finished n =>
      obtain rfl : n = c.itemsPerProducer := h.2.2.resolve_right hno
      exact .producer id
    | faulted => cases hwhole
    | _ => cases hback
  | consumer place =>
    cases place with
    | finished n =>
      obtain rfl : n = c.totalItems := h.2.2.resolve_right hno
      exact .consumer
    | faulted => cases hwhole
    | _ => cases hback
  | watcher id place =>
    cases place with
    | finished r =>
      cases r with
      | none => exact absurd h.2 hno
      | some r =>
        obtain ⟨who, total, seq⟩ := r
        obtain ⟨-, rfl, rfl⟩ := h
        exact .watcher who seq
    | faulted => cases hwhole
    | _ => cases hback
  | breaker => cases hmember
  | starter | finisher => exact h.elim

/-- What an agent of an open run may wait for. -/
inductive Waits (m : Monitor) : Agent → Prop where
  | room (id n : Nat) : m.slots.free.value = 0 → Waits m (.producer id (.ready n))
  | item : m.slots.filled.value = 0 → Waits m (.consumer .ready)
  | ending (id : Nat) : m.state.done = false → Waits m (.watcher id .waiting)

/-- Who is not back and cannot move behind an open gate waits for room, an item or the end. -/
theorem waits_of_blocked {m : Monitor} {a : Agent} (hopen : m.state.start = true) (hsafe : a.Safe m)
    (hblocked : a.canMove m = false) (hout : a.outcome?.isNone = true) : Waits m a := by
  cases a with
  | producer id place =>
    cases place with
    | gate => rw [canMove, hopen] at hblocked; cases hblocked
    | ready n => exact .room id n (by simpa [canMove] using hblocked)
    | holding | moved | stopping => cases hblocked
    | finished => cases hout
    | unwinding | failing | faulted | crashed => exact hsafe.elim
  | consumer place =>
    cases place with
    | gate => rw [canMove, hopen] at hblocked; cases hblocked
    | ready => exact .item (by simpa [canMove] using hblocked)
    | holding | moved | stopping => cases hblocked
    | finished => cases hout
    | unwinding | failing | faulted | crashed => exact hsafe.elim
  | watcher id place =>
    cases place with
    | gate => rw [canMove, hopen] at hblocked; cases hblocked
    | waiting => exact .ending id hblocked
    | finished => cases hout
    | failing | faulted | crashed => exact hsafe.elim
  | breaker place =>
    cases place with
    | calling => cases hblocked
    | finished => cases hout
    | faulted => exact hsafe.elim
  | starter | finisher => exact hsafe.elim

theorem Waits.out_eq {m : Monitor} {a : Agent} (h : Waits m a) (side : Side) : a.out side = 0 := by
  cases h <;> cases side <;> rfl

end Agent

/-! ## They cannot all wait -/

namespace System

variable {c : Config} {s : System}

theorem count_producers (hnames : s.names = c.roster) : s.count (Agent.named AgentName.isProducer) = c.producers := by
  rw [count_named, hnames, Config.countP_roster_producer]

theorem exists_consumer (hnames : s.names = c.roster) : ∃ place, .consumer place ∈ s.agents.toList := by
  have hmem : AgentName.consumer ∈ s.names := by rw [hnames]; exact List.mem_cons_self
  obtain ⟨a, ha, hname⟩ := List.mem_filterMap.1 hmem
  cases a with
  | consumer place => exact ⟨place, ha⟩
  | producer | watcher | starter | finisher | breaker => cases hname

/-- Where nobody holds or owes a permit, and the run was not failed, the counters show the buffer's places. -/
theorem Balanced.shown (hb : s.Balanced c) (hs : s.Sound c) (hf : s.monitor.state.failed = false)
    (hout : ∀ a ∈ s.agents.toList, ∀ side, a.out side = 0) (side : Side) :
    (s.monitor.slots.get side).value = s.monitor.state.places c side := by
  have hzero : s.tally (Agent.out side) = 0 := by
    refine List.sum_eq_zero fun n hn => ?_
    obtain ⟨a, ha, rfl⟩ := List.mem_map.1 hn
    exact hout a ha side
  have hadded := hs.added_le side
  rw [hf, Bool.toNat_false] at hadded
  have := hb.accounts side
  omega

theorem Balanced.produced_eq (hb : s.Balanced c) (hc : c.Fits) (hnames : s.names = c.roster)
    (hback : ∀ a ∈ s.agents.toList, ∀ id, a.name? = some (.producer id) → a.Returned c) :
    s.monitor.state.produced = c.totalItems := by
  have hsum : s.tally Agent.inserts = s.tally fun a => (a.named AgentName.isProducer).toNat * c.itemsPerProducer := by
    unfold tally
    congr 1
    refine List.map_congr_left fun a ha => ?_
    cases a with
    | producer id place =>
      cases hback _ ha id rfl
      exact (Nat.one_mul _).symm
    | consumer | watcher | starter | finisher | breaker => exact (Nat.zero_mul _).symm
  rw [hb.produced, hsum, tally_mul, count_producers hnames, hc.total_eq]

theorem unfinished_of_returned (hback : ∀ a ∈ s.agents.toList, a.Returned c) : s.unfinished = 0 := by
  exact count_eq_zero fun a ha => (hback a ha).outcome?_eq

/-- **Where nobody can move behind an open gate, and the run was not failed, everybody is back.** -/
theorem Sound.returned_of_stuck (hs : s.Sound c) (hc : c.Fits) (hopen : s.monitor.state.start = true)
    (haborted : s.monitor.state.aborted = false) (hf : s.monitor.state.failed = false) (hnames : s.names = c.roster)
    (hcalls : s.count Agent.isBreaker = 0) (hstuck : ∀ i, s.step i = none) :
    ∀ a ∈ s.agents.toList, a.Returned c := by
  have hroomy : s.Roomy := .of_not_failed hf
  have hb := hs.balanced hroomy
  have hlevel := hs.coherent.level
  have hblocked : ∀ a ∈ s.agents.toList, a.canMove s.monitor = false := by
    intro a ha
    obtain ⟨i, hi⟩ := List.mem_iff_getElem?.1 ha
    rw [Array.getElem?_toList] at hi
    rw [← Agent.step_isSome (hs.safe hroomy hc ha), ← step_isSome_eq hb.upright hi, hstuck i]
    rfl
  have hcases : ∀ a ∈ s.agents.toList, a.Returned c ∨ a.Waits s.monitor := by
    intro a ha
    cases hout : a.outcome?.isNone with
    | true => exact .inr (Agent.waits_of_blocked hopen (hs.safe hroomy hc ha) (hblocked a ha) hout)
    | false =>
      refine .inl ((hs.stands a ha).returned haborted hf (hb.whole a ha) ?_ hout)
      exact Bool.eq_false_iff.2 (List.countP_eq_zero.1 hcalls a ha)
  have hshown := hb.shown hs hf fun a ha side =>
    (hcases a ha).elim (·.out_eq side) (·.out_eq side)
  have hfree : s.monitor.slots.free.value = c.capacity - s.monitor.state.buffer.len := hshown .free
  have hfilled : s.monitor.slots.filled.value = s.monitor.state.buffer.len := hshown .filled
  -- the consumer is back: otherwise the ring is empty, so the producers are back, and nothing is left to consume
  obtain ⟨place, hmem⟩ := exists_consumer hnames
  have hall : s.monitor.state.consumed = c.totalItems := by
    rcases hcases _ hmem with h | h
    · cases h
      exact (hs.stands _ hmem).2.1
    · cases h with
      | item hzero =>
        have hempty : s.monitor.state.buffer.len = 0 := hfilled.symm.trans hzero
        have hpos := hc.capacity_pos
        have hback : ∀ a ∈ s.agents.toList, ∀ id, a.name? = some (.producer id) → a.Returned c := by
          intro a ha id hname
          refine (hcases a ha).resolve_right fun hwaits => ?_
          cases hwaits with
          | room => omega
          | item | ending => cases hname
        have := hb.produced_eq hc hnames hback
        omega
  intro a ha
  refine (hcases a ha).resolve_right fun hwaits => ?_
  cases hwaits with
  | room id n =>
    have hlt := hs.produced_lt hb hc ha (hs.stands _ ha).2
    omega
  | item =>
    have hlt : s.monitor.state.consumed < c.totalItems := (hs.stands _ ha).2
    omega
  | ending id hdone =>
    have := hs.coherent.done
    rw [hdone, hf, Bool.or_false, eq_comm, decide_eq_false_iff_not] at this
    exact this hall

end System

/-! ## Every schedule of a run is finite -/

/-- A bound on the steps that the agents of a run take together. -/
def Config.stepBound (c : Config) : Nat := 9 + (c.watchers * 6 + c.producers * (6 * c.itemsPerProducer + 12))

def Launcher.toCome (c : Config) : Launcher → List AgentName
  | preparing _ name => c.onward name
  | opening _ | waiting _ => []

theorem System.budget_join (s : System) (a : Agent) :
    (s.join a).budget = s.budget + a.budget s.monitor.config.itemsPerProducer := by
  rw [budget_eq, budget_eq, tally_join, Nat.add_right_comm]
  rfl

namespace Run

variable {c : Config} {calls : Nat} {r r' : Run}

def outlay (c : Config) (r : Run) : Nat :=
  r.system.budget + ((r.launcher.toCome c).map fun name => (Agent.atGate name).budget c.itemsPerProducer).sum

theorem outlay_start (hc : c.Fits) (h : Run.start c [] = .ok r) (calls : Nat) :
    (r.withCalls calls).outlay c = c.stepBound + 3 * calls := by
  rw [start_ok hc.valid, Except.ok.injEq] at h
  subst h
  have hroster : (c.roster.map fun name => (Agent.atGate name).budget c.itemsPerProducer).sum = c.stepBound := by
    simp only [Config.roster, List.map_cons, List.map_append, List.map_map, List.sum_cons, List.sum_append,
      Function.comp_def, Agent.atGate, Agent.budget, ProducerPlace.budget, ConsumerPlace.budget, WatcherPlace.budget,
      List.map_const', List.length_range, List.sum_replicate_nat, Config.stepBound]
  have hcalls : (List.replicate calls (Agent.budget c.itemsPerProducer (.breaker (.calling .mark)))).sum = 3 * calls := by
    rw [List.sum_replicate_nat, Nat.mul_comm]
    rfl
  rw [outlay, System.budget_eq]
  change _ + 0 + (c.roster.map _).sum = _
  rw [hroster, Nat.add_zero, Nat.add_comm, ← hcalls]
  simp [System.tally, withCalls, Monitor.say, Monitor.fresh]

theorem Underway.launch_outlay (hu : r.Underway c calls) (h : r.launch = some r') : r'.outlay c = r.outlay c := by
  have hlaunched := hu.launched
  rcases hu.launch_cases h with ⟨name, log, hl, -, rfl⟩ | ⟨log, hl, rfl⟩
  · rw [hl] at hlaunched
    have hbudget := r.system.budget_join (.atGate name)
    rw [hu.sound.config] at hbudget
    have htoCome : ((c.successor? name).elim (Launcher.opening none) (.preparing [])).toCome c =
        (c.successor? name).elim [] c.onward := by
      cases c.successor? name <;> rfl
    unfold outlay
    rw [hl, htoCome, Launcher.toCome, Config.onward_eq hlaunched.2.2.1, List.map_cons, List.sum_cons, ← Nat.add_assoc,
      ← hbudget]
    rfl
  · unfold outlay
    rw [hl]
    rfl

/-- **No schedule has more steps of agents than the bound.** -/
theorem Underway.exec_outlay (hc : c.Fits) : ∀ (schedule : List (Option Nat)) {r r' : Run}, r.Underway c calls →
    r.exec schedule = some r' → r'.outlay c + schedule.countP Option.isSome ≤ r.outlay c
  | [], r, r', _, h => by
    cases h
    exact Nat.le_refl _
  | who :: rest, r, r', hu, h => by
    obtain ⟨r₁, hstep, hrest⟩ := Option.bind_eq_some_iff.1 h
    have hle := Underway.exec_outlay hc rest (hu.step hc hstep) hrest
    rw [List.countP_cons]
    cases who with
    | none =>
      have hsame := hu.launch_outlay hstep
      rw [Option.isSome_none, if_neg Bool.false_ne_true]
      omega
    | some i =>
      obtain ⟨s, hs, rfl⟩ := Option.map_eq_some_iff.1 hstep
      have hlt := System.step_budget_lt hs
      have hsame : ({ r with system := s } : Run).outlay c + r.system.budget = r.outlay c + s.budget := by
        simp only [outlay]
        omega
      rw [Option.isSome_some, if_pos rfl]
      omega

/-! ## The launcher's own steps -/

theorem Underway.launchBudget_eq (hu : r.Underway c calls) : r.launchBudget = match r.launcher with
    | .preparing _ name => c.countAfter name + 3
    | .opening _ => 1
    | .waiting _ => 0 := by
  have hlaunched := hu.launched
  unfold launchBudget
  cases hl : r.launcher with
  | preparing steps name =>
    rw [hl] at hlaunched
    simp only [hlaunched.1, hu.hooks, hu.sound.config, List.length_nil, Nat.zero_add, Nat.add_zero]
  | opening | waiting => rfl

theorem Underway.launchBudget_lt (hu : r.Underway c calls) (h : r.launch = some r') :
    r'.launchBudget < r.launchBudget := by
  have hu' := hu.launch h
  rw [hu.launchBudget_eq, hu'.launchBudget_eq]
  rcases hu.launch_cases h with ⟨name, log, hl, -, rfl⟩ | ⟨log, hl, rfl⟩
  · rw [hl]
    cases hnext : c.successor? name with
    | none =>
      change 1 < c.countAfter name + 3
      omega
    | some next =>
      have := Config.countAfter_of_successor hnext
      change c.countAfter next + 3 < c.countAfter name + 3
      omega
  · rw [hl]
    exact Nat.zero_lt_one

theorem Underway.exec_launchBudget (hc : c.Fits) : ∀ (schedule : List (Option Nat)) {r r' : Run}, r.Underway c calls →
    r.exec schedule = some r' → r'.launchBudget + schedule.countP Option.isNone ≤ r.launchBudget
  | [], r, r', _, h => by
    cases h
    exact Nat.le_refl _
  | who :: rest, r, r', hu, h => by
    obtain ⟨r₁, hstep, hrest⟩ := Option.bind_eq_some_iff.1 h
    have hu₁ := hu.step hc hstep
    have hle := Underway.exec_launchBudget hc rest hu₁ hrest
    rw [List.countP_cons]
    cases who with
    | none =>
      have hlt := hu.launchBudget_lt hstep
      rw [Option.isNone_none, if_pos rfl]
      omega
    | some i =>
      obtain ⟨s, -, rfl⟩ := Option.map_eq_some_iff.1 hstep
      have hsame : ({ r with system := s } : Run).launchBudget = r.launchBudget := by
        rw [hu₁.launchBudget_eq, hu.launchBudget_eq]
      rw [Option.isNone_some, if_neg Bool.false_ne_true]
      omega

/-! ## Every run can be carried to its end -/

theorem exec_agents : ∀ (taken : List Nat) (r : Run) {s : System}, r.system.exec taken = some s →
    r.exec (taken.map some) = some { r with system := s }
  | [], r, s, h => by
    cases h
    rfl
  | i :: taken, r, s, h => by
    obtain ⟨s₁, hstep, hrest⟩ := Option.bind_eq_some_iff.1 h
    have hnext : r.step (some i) = some { r with system := s₁ } := by rw [step, hstep]; rfl
    rw [List.map_cons, exec, hnext]
    exact exec_agents taken { r with system := s₁ } hrest

theorem step_of_settled (hagents : ∀ i, r.system.step i = none) (hlaunch : r.launch = none) (who : Option Nat) :
    r.step who = none := by
  cases who with
  | none => exact hlaunch
  | some i => rw [step, hagents i]; rfl

/-- Whether nobody can move is seen by asking the launcher and each agent. -/
theorem stuck_of_all (hlaunch : r.launch.isNone = true)
    (hagents : ((List.range r.system.agents.size).all fun i => (r.system.step i).isNone) = true) (who : Option Nat) :
    r.step who = none := by
  refine step_of_settled (fun i => ?_) (Option.isNone_iff_eq_none.1 hlaunch) who
  by_cases hi : i < r.system.agents.size
  · exact Option.isNone_iff_eq_none.1 (List.all_eq_true.1 hagents i (List.mem_range.2 hi))
  · exact System.step_of_size_le (Nat.not_lt.1 hi)

/-- **Letting a run go on ends where nobody can move.** -/
theorem Underway.proceed_stuck (hc : c.Fits) : ∀ (n : Nat) {r : Run}, r.Underway c calls → r.launchBudget ≤ n →
    ∃ rest, r.exec rest = some (proceed n r) ∧ ∀ who, (proceed n r).step who = none := by
  intro n
  induction n with
  | zero =>
    intro r hu hn
    obtain ⟨taken, hexec, hstuck⟩ := r.system.settle_stuck
    refine ⟨taken.map some, exec_agents taken r hexec, step_of_settled hstuck ?_⟩
    rw [hu.launchBudget_eq] at hn
    cases hl : r.launcher with
    | preparing | opening => rw [hl] at hn; cases hn
    | waiting refusal => simp only [proceed, Run.launch, hl]
  | succ n ih =>
    intro r hu hn
    obtain ⟨taken, hexec, hstuck⟩ := r.system.settle_stuck
    have hsettled := exec_agents taken r hexec
    have hu₁ := Underway.exec hc _ hu hsettled
    have hbudget : ({ r with system := r.system.settle } : Run).launchBudget = r.launchBudget := by
      rw [hu₁.launchBudget_eq, hu.launchBudget_eq]
    rw [proceed]
    cases hlaunch : ({ r with system := r.system.settle } : Run).launch with
    | none => exact ⟨taken.map some, hsettled, step_of_settled hstuck hlaunch⟩
    | some r₂ =>
      have hlt := hu₁.launchBudget_lt hlaunch
      obtain ⟨rest, hrest, hend⟩ := ih (hu₁.launch hlaunch) (by omega)
      refine ⟨taken.map some ++ none :: rest, ?_, hend⟩
      rw [exec_append, hsettled, Option.bind_some, Run.exec, Run.step, hlaunch]
      exact hrest

theorem Underway.complete_stuck (hu : r.Underway c calls) (hc : c.Fits) :
    ∃ rest, r.exec rest = some r.complete ∧ ∀ who, r.complete.step who = none :=
  Underway.proceed_stuck hc r.launchBudget hu (Nat.le_refl _)

theorem Underway.waiting_of_stuck (hu : r.Underway c calls) (hstuck : ∀ who, r.step who = none) :
    r.launcher = .waiting none ∧ r.system.monitor.state.start = true ∧ r.system.names = c.roster := by
  have hnone : r.launch = none := hstuck none
  have hlaunched := hu.launched
  cases hl : r.launcher with
  | preparing steps name =>
    rw [hl] at hlaunched
    simp only [Run.launch, hl, hlaunched.1] at hnone
    split at hnone <;> cases hnone
  | opening refusal =>
    simp only [Run.launch, hl] at hnone
    cases hnone
  | waiting refusal =>
    rw [hl] at hlaunched
    exact ⟨by rw [hlaunched.1], hlaunched.2⟩

theorem Underway.not_failed (hu : r.Underway c 0) : r.system.monitor.state.failed = false := by
  cases hf : r.system.monitor.state.failed with
  | false => rfl
  | true =>
    have := hu.sound.blamed hf
    rw [hu.calls] at this
    cases this

/-- **Where nobody can move, everybody is back.** -/
theorem Underway.returned_of_stuck (hu : r.Underway c 0) (hc : c.Fits)
    (hopen : r.system.monitor.state.start = true) (hnames : r.system.names = c.roster)
    (hstuck : ∀ i, r.system.step i = none) : ∀ a ∈ r.system.agents.toList, a.Returned c :=
  hu.sound.returned_of_stuck hc hopen hu.verdict hu.not_failed hnames hu.calls hstuck

theorem Underway.names_of_open (hu : r.Underway c calls) (hopen : r.system.monitor.state.start = true) :
    r.system.names = c.roster := by
  have hlaunched := hu.launched
  cases hl : r.launcher with
  | preparing => rw [hl] at hlaunched; rw [hlaunched.2.1] at hopen; cases hopen
  | opening => rw [hl] at hlaunched; rw [hlaunched.2.1] at hopen; cases hopen
  | waiting => rw [hl] at hlaunched; exact hlaunched.2.2

theorem Underway.length_le (hu : r.Underway c calls) (hc : c.Fits) {schedule : List (Option Nat)}
    (h : r.exec schedule = some r') : schedule.length ≤ r.outlay c + r.launchBudget := by
  have hagents := Underway.exec_outlay hc schedule hu h
  have hlauncher := Underway.exec_launchBudget hc schedule hu h
  have hsplit := List.length_eq_countP_add_countP Option.isSome (l := schedule)
  have hnone : (fun who : Option Nat => decide ¬ who.isSome = true) = Option.isNone := by
    funext who
    cases who <;> rfl
  rw [hnone] at hsplit
  omega

/-- **A run that nobody fails never deadlocks, and comes to its end.**  In every state, under every schedule of the
launcher and the agents, an agent can take a step exactly if it waits neither for the gate, nor for a place on its side,
nor for the end, and is not back.  Behind the open gate somebody can take a step as long as anybody is not back.  The
steps of the agents are bounded by the configuration alone, so no schedule goes on for good; every schedule can be
carried to an end, and at every end all agents of the run are there and back, with all their work done. -/
theorem never_deadlocks (hc : c.Fits) (schedule : List (Option Nat)) {r₀ r : Run} (hstart : Run.start c [] = .ok r₀)
    (hexec : r₀.exec schedule = some r) :
    (∀ i a, r.system.agents[i]? = some a → (r.system.step i).isSome = a.canMove r.system.monitor) ∧
    (r.system.monitor.state.start = true → r.system.unfinished ≠ 0 → ∃ i, (r.system.step i).isSome = true) ∧
    (schedule.countP Option.isSome ≤ c.stepBound ∧
      ∀ f : Nat → Option Nat, ∃ n, r₀.exec ((List.range n).map f) = none) ∧
    (∃ rest r', r.exec rest = some r' ∧ ∀ who, r'.step who = none) ∧
    ((∀ who, r.step who = none) → r.system.names = c.roster ∧ ∀ a ∈ r.system.agents.toList, a.Returned c) := by
  have hu₀ := Underway.start_alone hc hstart
  have houtlay := outlay_start hc hstart 0
  rw [withCalls_zero] at houtlay
  have hu := Underway.exec hc schedule hu₀ hexec
  have hroomy : r.system.Roomy := .of_not_failed hu.not_failed
  have hupright := (hu.sound.balanced hroomy).upright
  refine ⟨fun i a hi => ?_, fun hopen hleft => ?_, ⟨?_, fun f => ?_⟩, ?_, fun hstuck => ?_⟩
  · have ha : a ∈ r.system.agents.toList := Array.mem_toList_iff.2 (Array.mem_of_getElem? hi)
    rw [System.step_isSome_eq hupright hi, Agent.step_isSome (hu.sound.safe hroomy hc ha)]
  · by_contra hnobody
    have hstuck : ∀ i, r.system.step i = none := by
      intro i
      rw [← Option.not_isSome_iff_eq_none]
      exact fun hi => hnobody ⟨i, hi⟩
    exact hleft (System.unfinished_of_returned (hu.returned_of_stuck hc hopen (hu.names_of_open hopen) hstuck))
  · have := Underway.exec_outlay hc schedule hu₀ hexec
    omega
  · refine ⟨r₀.outlay c + r₀.launchBudget + 1, ?_⟩
    cases hrun : r₀.exec ((List.range (r₀.outlay c + r₀.launchBudget + 1)).map f) with
    | none => rfl
    | some r' =>
      have hle := hu₀.length_le hc hrun
      rw [List.length_map, List.length_range] at hle
      omega
  · obtain ⟨rest, hrest, hend⟩ := hu.complete_stuck hc
    exact ⟨rest, _, hrest, hend⟩
  · obtain ⟨-, hopen, hnames⟩ := hu.waiting_of_stuck hstuck
    refine ⟨hnames, hu.returned_of_stuck hc hopen hnames fun i => ?_⟩
    exact Option.map_eq_none_iff.1 (hstuck (some i))

/-- The ring has one cell, and a producer has filled it and not yet passed its permit on.  Both counters show zero, and
the consumer, the watcher and the other producer wait. -/
theorem never_deadlocks_before_passing :
    let c : Config := { capacity := 1, producers := 2, itemsPerProducer := 1 }
    let schedule := List.replicate 5 none ++ [0, 1, 2, 3, 2, 2].map some
    c.Fits ∧ ∃ r₀ r, Run.start c [] = .ok r₀ ∧ r₀.exec schedule = some r ∧
      (r.system.monitor.slots.free.value, r.system.monitor.slots.filled.value, r.system.unfinished) = (0, 0, 4) ∧
      r.system.monitor.state.start = true ∧ ∃ i, (r.system.step i).isSome = true := by
  intro c schedule
  have hc : c.Fits := ⟨by decide, by decide, by decide⟩
  obtain ⟨r₀, r, hstart, hexec, hseen⟩ := exists_exec c 0 schedule (b := ((0, 0, 4), true))
    (fun r => ((r.system.monitor.slots.free.value, r.system.monitor.slots.filled.value, r.system.unfinished),
      r.system.monitor.state.start)) (by decide +kernel)
  rw [withCalls_zero] at hexec
  rw [Prod.mk.injEq] at hseen
  obtain ⟨hcounts, hopen⟩ := hseen
  have hleft : r.system.unfinished ≠ 0 := by
    rw [Prod.mk.injEq, Prod.mk.injEq] at hcounts
    rw [hcounts.2.2]
    decide
  exact ⟨hc, r₀, r, hstart, hexec, hcounts, hopen, (never_deadlocks hc schedule hstart hexec).2.1 hopen hleft⟩

end Run
end Handover
