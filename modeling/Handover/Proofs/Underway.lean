import Handover.Proofs.Soundness
import Handover.Run.Launch
/-!
# Underway — what holds all through a run

A run brings its agents in, opens the gate and waits.  All through it the system is sound, and the launcher has come as
far as the names of the agents say (`Run.Underway`).  Calls from outside that fail the run are there from the start and
make their first step at a moment of the schedule's choosing, or never (`Run.withCalls`).
-/
namespace Handover

/-! ## The agents that are still to come -/

namespace Config

def onward (c : Config) : AgentName → List AgentName
  | .consumer => c.roster
  | .watcher id => (List.range' id (c.watchers - id)).map .watcher ++ (List.range c.producers).map .producer
  | .producer id => (List.range' id (c.producers - id)).map .producer

theorem range'_pos {id n : Nat} (h : id < n) : List.range' id (n - id) = id :: List.range' (id + 1) (n - (id + 1)) := by
  rw [show n - id = n - (id + 1) + 1 by omega, List.range'_succ]

theorem firstProducer_onward (c : Config) :
    (List.range c.producers).map AgentName.producer = c.firstProducer?.elim [] c.onward := by
  unfold firstProducer?
  by_cases h : 0 < c.producers
  · rw [if_pos h, Option.elim_some, onward, Nat.sub_zero, List.range_eq_range']
  · rw [if_neg h, Option.elim_none, show c.producers = 0 by omega]
    rfl

/-- **Each agent comes before its successor, and nobody is in between.** -/
theorem onward_eq {c : Config} {name : AgentName} (h : name ∈ c.roster) :
    c.onward name = name :: (c.successor? name).elim [] c.onward := by
  cases name with
  | consumer =>
    rw [onward, roster, successor?]
    by_cases hw : 0 < c.watchers
    · rw [if_pos hw, Option.elim_some, onward, Nat.sub_zero, List.range_eq_range']
    · rw [if_neg hw, ← firstProducer_onward, show c.watchers = 0 by omega]
      rfl
  | watcher id =>
    have hid : id < c.watchers := by simpa [roster] using h
    rw [onward, range'_pos hid, successor?, List.map_cons, List.cons_append]
    by_cases hw : id + 1 < c.watchers
    · rw [if_pos hw, Option.elim_some, onward]
    · rw [if_neg hw, ← firstProducer_onward, show c.watchers - (id + 1) = 0 by omega]
      rfl
  | producer id =>
    have hid : id < c.producers := by simpa [roster] using h
    rw [onward, range'_pos hid, successor?, List.map_cons]
    by_cases hp : id + 1 < c.producers
    · rw [if_pos hp, Option.elim_some, onward]
    · rw [if_neg hp, Option.elim_none, show c.producers - (id + 1) = 0 by omega]
      rfl

theorem successor_mem {c : Config} {name next : AgentName} (h : c.successor? name = some next) : next ∈ c.roster := by
  have hfirst : c.firstProducer? = some next → next ∈ c.roster := by
    intro hf
    obtain ⟨hp, rfl⟩ := firstProducer?_eq_some.1 hf
    exact mem_roster_producer.2 hp
  cases name with
  | consumer =>
    rw [successor?] at h
    split at h
    · rename_i hw
      cases h
      simpa [roster] using hw
    · exact hfirst h
  | watcher id =>
    rw [successor?] at h
    split at h
    · rename_i hw
      cases h
      simpa [roster] using hw
    · exact hfirst h
  | producer id =>
    rw [successor?] at h
    split at h
    · rename_i hp
      cases h
      exact mem_roster_producer.2 hp
    · cases h

theorem not_mem_of_onward {c : Config} {name : AgentName} {names : List AgentName} (h : name ∈ c.roster)
    (hnames : names ++ c.onward name = c.roster) : name ∉ names := by
  have hnd := c.nodup_roster
  rw [← hnames, onward_eq h, List.nodup_append] at hnd
  exact fun hmem => hnd.2.2 name hmem name List.mem_cons_self rfl

end Config

/-! ## The launcher keeps a system sound -/

theorem Agent.atGate_name (name : AgentName) : (Agent.atGate name).name? = some name := by
  cases name <;> rfl

theorem Agent.atGate_counts (name : AgentName) :
    (∀ side, (Agent.atGate name).out side = 0 ∧ (Agent.atGate name).added side = 0) ∧
      (Agent.atGate name).inserts = 0 ∧ (Agent.atGate name).isMarker = false ∧
      (Agent.atGate name).report? = none ∧ (Agent.atGate name).isFaulty = false ∧
      (Agent.atGate name).isBreaker = false := by
  cases name <;> exact ⟨fun side => by cases side <;> exact ⟨rfl, rfl⟩, rfl, rfl, rfl, rfl, rfl⟩

theorem Agent.Stands.opened {c : Config} {s s' : State} {a : Agent} (h : a.Stands c s) (hclosed : s.start = false)
    (hfailed : s'.failed = s.failed) (hconsumed : s'.consumed = s.consumed) : a.Stands c s' := by
  have hno : s.start ≠ true := by rw [hclosed]; decide
  cases a with
  | producer id place =>
    cases place with
    | ready | holding | moved | stopping | finished => exact absurd h.1 hno
    | gate | unwinding | failing | faulted | crashed => trivial
  | consumer place =>
    cases place with
    | gate => exact hconsumed.trans h
    | moved last => cases last <;> exact absurd h.1 hno
    | ready | holding | stopping | finished => exact absurd h.1 hno
    | unwinding | failing | faulted | crashed => trivial
  | watcher id place =>
    cases place with
    | waiting => exact absurd h hno
    | finished r => cases r <;> exact absurd h.1 hno
    | gate | failing | faulted | crashed => trivial
  | breaker place =>
    cases place with
    | calling stage =>
      cases stage with
      | mark => trivial
      | free | filled => exact hfailed.trans h
    | finished => exact hfailed.trans h
    | faulted => trivial
  | starter | finisher => exact h.elim

namespace System

variable {c : Config} {s : System}

theorem Balanced.join (hb : s.Balanced c) (name : AgentName) : (s.join (.atGate name)).Balanced c := by
  obtain ⟨hplaces, hinserts, -, -, hwhole, -⟩ := Agent.atGate_counts name
  refine ⟨hb.upright, ?_, fun side => ?_, ?_⟩
  · intro x hx
    rw [s.toList_join, List.mem_append, List.mem_singleton] at hx
    rcases hx with hx | rfl
    · exact hb.whole x hx
    · exact hwhole
  · rw [tally_join, tally_join, (hplaces side).1, (hplaces side).2]
    exact hb.accounts side
  · rw [tally_join, hinserts]
    exact hb.produced

/-- The gate, its verdict and the notes have no part in the balance. -/
theorem Balanced.withGate (hb : s.Balanced c) (aborted start : Bool) (log : List Note) :
    ({ s with monitor := { s.monitor with
        state := { s.monitor.state with aborted := aborted, start := start }, log := log } } : System).Balanced c :=
  ⟨hb.upright, hb.whole, hb.accounts, hb.produced⟩

/-- **A newcomer keeps a system sound** behind a closed gate. -/
theorem Sound.join (hs : s.Sound c) {name : AgentName} (hclosed : s.monitor.state.start = false)
    (hnew : name ∉ s.names) (hknown : name ∈ c.roster) : (s.join (.atGate name)).Sound c := by
  obtain ⟨-, -, hmarker, hreport, -, -⟩ := Agent.atGate_counts name
  have hnames := s.names_join (Agent.atGate_name name)
  have hagents := s.toList_join (.atGate name)
  have hreported : (s.join (.atGate name)).count Agent.hasReported = s.count Agent.hasReported := by
    rw [count_join, Agent.hasReported, hreport]
    rfl
  have hreports : (s.join (.atGate name)).reports = s.reports := by
    rw [reports, hagents, List.filterMap_append, List.filterMap_cons, hreport, List.filterMap_nil, List.append_nil]
    rfl
  have hempty : s.monitor.state.consumed = 0 := by
    have := hs.closed hclosed
    have := hs.coherent.level
    omega
  refine ⟨hs.config, hs.coherent, hs.closed, ?_, ?_, ?_, ?_, ?_, ?_, ?_⟩
  · rw [hreported]; exact hs.events
  · rw [hreports, hreported]; exact hs.numbers
  · rw [hnames, List.nodup_append]
    refine ⟨hs.nodup, List.nodup_singleton _, fun x hx y hy hxy => hnew ?_⟩
    rw [← List.mem_singleton.1 hy, ← hxy]
    exact hx
  · intro x hx
    rw [hnames, List.mem_append, List.mem_singleton] at hx
    rcases hx with hx | rfl
    · exact hs.known x hx
    · exact hknown
  · intro x hx
    rw [hagents, List.mem_append, List.mem_singleton] at hx
    rcases hx with hx | rfl
    · exact hs.stands x hx
    · cases name with
      | consumer => exact hempty
      | watcher | producer => trivial
  · rw [count_join, hmarker]
    exact hs.marked
  · intro hroomy
    exact (hs.balanced hroomy).join name

theorem Sound.noted (hs : s.Sound c) (log : List Note) :
    ({ s with monitor := { s.monitor with log := log } } : System).Sound c := by
  refine ⟨hs.config, hs.coherent, hs.closed, hs.events, hs.numbers, hs.nodup, hs.known, hs.stands, hs.marked, ?_⟩
  intro hroomy
  exact (hs.balanced hroomy).withGate s.monitor.state.aborted s.monitor.state.start log

/-- **Opening the gate keeps a system sound**, whatever the verdict. -/
theorem Sound.openGate (hs : s.Sound c) (hclosed : s.monitor.state.start = false) (proceed : Bool) :
    ({ s with monitor := { s.monitor with
        state := { s.monitor.state with aborted := !proceed, start := true } } } : System).Sound c := by
  have h := hs.coherent
  refine ⟨hs.config, ⟨h.ring, h.cells, h.level, h.bound, h.phase, h.done, h.keep⟩, fun hno => absurd hno (by simp),
    hs.events, hs.numbers, hs.nodup, hs.known, fun a ha => (hs.stands a ha).opened hclosed rfl rfl, hs.marked, ?_⟩
  intro hroomy
  exact (hs.balanced hroomy).withGate (!proceed) true s.monitor.log

theorem act_openGate (s : System) (proceed : Bool) : ∃ log, (s.act (Act.openGate proceed)).1 = { s with monitor :=
    { s.monitor with state := { s.monitor.state with aborted := !proceed, start := true }, log := log } } := by
  unfold System.act
  rw [Act.openGate, Act.bind_ok Act.state_ok, Act.bind_ok (Act.setState_ok _)]
  cases s.monitor.state.start with
  | false => exact ⟨_, rfl⟩
  | true => exact ⟨_, rfl⟩

theorem Sound.step_keeps {s' : System} {i : Nat} (hs : s.Sound c) (hc : c.Fits) (h : s.step i = some s') :
    s'.monitor.state.start = s.monitor.state.start ∧ s'.monitor.state.aborted = s.monitor.state.aborted ∧
      s'.names = s.names ∧ s'.count Agent.isBreaker = s.count Agent.isBreaker := by
  obtain ⟨a, a', hr, -, -, ⟨-, e, ht, he⟩ | ⟨-, hfault⟩⟩ := hs.step_cases hc h
  · exact ⟨he.flags.1, he.flags.2.1, hr.names_eq ht.name_eq, hr.count_eq_of_eq ht.isBreaker_eq⟩
  · rw [hfault.state]
    exact ⟨rfl, rfl, hr.names_eq hfault.name, hr.count_eq_of_eq hfault.breaker⟩

end System

/-! ## All through a run -/

/-- **What a step of the launcher can do.** -/
inductive Run.Launches (r : Run) : Run → Prop where
  | refuses {cause : String} {steps : List HookStep} {name : AgentName} :
      r.launcher = .preparing (.refuse cause :: steps) name →
      Launches r { r with launcher := .opening (some ⟨name, cause⟩) }
  | acts {action : Action} {steps : List HookStep} {name : AgentName} :
      r.launcher = .preparing (.act action :: steps) name →
      Launches r { r.act action.perform with launcher := .preparing steps name }
  | joins {name : AgentName} (log : List Note) : r.launcher = .preparing [] name →
      Launches r { r with
        system := { r.system.join (.atGate name) with monitor := { r.system.monitor with log := log } }
        launcher := (r.system.monitor.config.successor? name).elim (.opening none)
          fun next => .preparing (stepsBefore r.hooks next) next }
  | opens {refusal : Option Refusal} (log : List Note) : r.launcher = .opening refusal →
      Launches r { r with
        system := { r.system with monitor := { r.system.monitor with
          state := { r.system.monitor.state with aborted := !refusal.isNone, start := true }, log := log } }
        launcher := .waiting refusal }

theorem Run.launches {r r' : Run} (h : r.launch = some r') : r.Launches r' := by
  unfold Run.launch at h
  split at h
  · rename_i cause steps name hl
    cases h
    exact .refuses hl
  · rename_i action steps name hl
    cases h
    exact .acts hl
  · rename_i name hl
    have hjoins := fun log => Launches.joins log hl
    simp only at h
    rw [show (r.system.join (.atGate name)).monitor.config = r.system.monitor.config from rfl] at h
    cases hnext : r.system.monitor.config.successor? name with
    | none =>
      rw [hnext] at h hjoins
      cases h
      exact hjoins _
    | some next =>
      rw [hnext] at h hjoins
      cases h
      exact hjoins _
  · rename_i refusal hl
    obtain ⟨log, hact⟩ := r.system.act_openGate refusal.isNone
    cases h
    rw [Run.act, hact]
    exact .opens log hl
  · cases h

/-- The launcher has come as far as the agents that are there and the gate show. -/
def Launcher.Agrees (c : Config) (s : System) : Launcher → Prop
  | preparing steps name => steps = [] ∧ s.monitor.state.start = false ∧ name ∈ c.roster ∧
      s.names ++ c.onward name = c.roster
  | opening refusal => refusal = none ∧ s.monitor.state.start = false ∧ s.names = c.roster
  | waiting refusal => refusal = none ∧ s.monitor.state.start = true ∧ s.names = c.roster

namespace Run

/-- The run with so many calls from outside that fail it, each at a moment of the schedule's choosing or never. -/
def withCalls (r : Run) (calls : Nat) : Run :=
  { r with system := { r.system with agents := r.system.agents ++ Array.replicate calls (.breaker (.calling .mark)) } }

@[simp] theorem withCalls_zero (r : Run) : r.withCalls 0 = r := by
  simp [withCalls]

/-- **What holds all through a run** with so many calls from outside that may fail it. -/
structure Underway (c : Config) (calls : Nat) (r : Run) : Prop where
  hooks : r.hooks = []
  sound : r.system.Sound c
  calls : r.system.count Agent.isBreaker = calls
  verdict : r.system.monitor.state.aborted = false
  launched : r.launcher.Agrees c r.system

variable {c : Config} {calls : Nat} {r r' : Run}

theorem start_eq (hc : c.validate = .ok ()) (hooks : List Hook) :
    Run.start c hooks = .ok
      { hooks := hooks
        system := { monitor := (Monitor.fresh c).say (.starting c) }
        launcher := .preparing (stepsBefore hooks .consumer) .consumer } := by
  unfold Run.start Monitor.new
  rw [hc]
  rfl

theorem valid_of_start {hooks : List Hook} (h : Run.start c hooks = .ok r) : c.validate = .ok () := by
  unfold Run.start Monitor.new at h
  cases hv : c.validate with
  | error e => rw [hv] at h; cases h
  | ok => rfl

theorem start_ok (hc : c.validate = .ok ()) :
    Run.start c [] = .ok
      { hooks := []
        system := { monitor := (Monitor.fresh c).say (.starting c) }
        launcher := .preparing [] .consumer } :=
  start_eq hc []

theorem sound_fresh (hc : c.Fits) {s : System} (hmonitor : s.monitor = (Monitor.fresh c).say (.starting c))
    (hagents : s.agents.toList = List.replicate calls (.breaker (.calling .mark))) (hhalted : s.halted = false) :
    s.Sound c := by
  have hall (a : Agent) (ha : a ∈ s.agents.toList) : a = .breaker (.calling .mark) := by
    rw [hagents] at ha
    exact List.eq_of_mem_replicate ha
  have htally (f : Agent → Nat) (hf : f (.breaker (.calling .mark)) = 0) : s.tally f = 0 := by
    simp [System.tally, hagents, hf]
  have hcount (p : Agent → Bool) (hp : p (.breaker (.calling .mark)) = false) : s.count p = 0 := by
    rw [System.count_eq_tally]
    exact htally _ (by rw [hp]; rfl)
  have hreports : s.reports = [] := by
    rw [System.reports, List.filterMap_eq_nil_iff]
    intro a ha
    rw [hall a ha]
    rfl
  have hnames : s.names = [] := by
    rw [System.names, List.filterMap_eq_nil_iff]
    intro a ha
    rw [hall a ha]
    rfl
  refine ⟨by rw [hmonitor]; rfl, by rw [hmonitor]; exact .fresh hc, fun _ => by rw [hmonitor]; rfl,
    ?_, ?_, ?_, ?_, ?_, ?_, fun _ => ⟨hhalted, ?_, ?_, ?_⟩⟩
  · rw [hmonitor, hcount Agent.hasReported rfl]; rfl
  · rw [hreports, hcount Agent.hasReported rfl]; exact List.Perm.nil
  · rw [hnames]; exact List.nodup_nil
  · rw [hnames]; exact fun _ h => absurd h List.not_mem_nil
  · intro a ha; rw [hall a ha]; trivial
  · rw [hmonitor, hcount Agent.isMarker rfl]; rfl
  · intro a ha; rw [hall a ha]; rfl
  · intro side
    rw [hmonitor, htally (Agent.out side) (by cases side <;> rfl), htally (Agent.added side) (by cases side <;> rfl)]
    cases side <;> rfl
  · rw [hmonitor, htally Agent.inserts rfl]; rfl

/-- **A run begins as it goes on.** -/
theorem Underway.start (hc : c.Fits) (h : Run.start c [] = .ok r) (calls : Nat) :
    (r.withCalls calls).Underway c calls := by
  rw [start_ok hc.valid, Except.ok.injEq] at h
  subst h
  have hagents : (#[] ++ Array.replicate calls (Agent.breaker (.calling .mark))).toList =
      List.replicate calls (.breaker (.calling .mark)) := by simp
  refine ⟨rfl, sound_fresh hc rfl hagents rfl, ?_, rfl, rfl, rfl, List.mem_cons_self, ?_⟩
  · unfold System.count withCalls
    rw [hagents, List.countP_replicate]
    rfl
  · unfold System.names withCalls
    rw [hagents, List.filterMap_replicate_of_none rfl]
    rfl

theorem Underway.start_alone (hc : c.Fits) (h : Run.start c [] = .ok r) : r.Underway c 0 := by
  have hu := Underway.start hc h 0
  rw [withCalls_zero] at hu
  exact hu

theorem Underway.agent_step (hu : r.Underway c calls) (hc : c.Fits) {i : Nat} {s : System}
    (h : r.system.step i = some s) : ({ r with system := s } : Run).Underway c calls := by
  obtain ⟨hstart, haborted, hnames, hcalls⟩ := hu.sound.step_keeps hc h
  refine ⟨hu.hooks, hu.sound.step hc h, hcalls.trans hu.calls, haborted.trans hu.verdict, ?_⟩
  have hlaunched := hu.launched
  change r.launcher.Agrees c s
  cases hl : r.launcher with
  | preparing steps name =>
    rw [hl] at hlaunched
    exact ⟨hlaunched.1, hstart.trans hlaunched.2.1, hlaunched.2.2.1, by rw [hnames]; exact hlaunched.2.2.2⟩
  | opening refusal =>
    rw [hl] at hlaunched
    exact ⟨hlaunched.1, hstart.trans hlaunched.2.1, hnames.trans hlaunched.2.2⟩
  | waiting refusal =>
    rw [hl] at hlaunched
    exact ⟨hlaunched.1, hstart.trans hlaunched.2.1, hnames.trans hlaunched.2.2⟩

/-- **A step of the launcher, unpacked**: the next agent comes to the closed gate, or the gate opens. -/
theorem Underway.launch_cases (hu : r.Underway c calls) (h : r.launch = some r') :
    (∃ name log, r.launcher = .preparing [] name ∧ name ∉ r.system.names ∧
      r' = { hooks := [],
             system := { r.system.join (.atGate name) with monitor := { r.system.monitor with log := log } },
             launcher := (c.successor? name).elim (.opening none) (.preparing []) }) ∨
    ∃ log, r.launcher = .opening none ∧
      r' = { hooks := [],
             system := { r.system with monitor := { r.system.monitor with
               state := { r.system.monitor.state with aborted := false, start := true }, log := log } },
             launcher := .waiting none } := by
  have hlaunched := hu.launched
  cases launches h with
  | refuses hl | acts hl =>
    rw [hl] at hlaunched
    cases hlaunched.1
  | @joins name log hl =>
    rw [hl] at hlaunched
    obtain ⟨-, -, hknown, hnames⟩ := hlaunched
    refine .inl ⟨name, log, hl, Config.not_mem_of_onward hknown hnames, ?_⟩
    rw [hu.hooks, hu.sound.config]
    rfl
  | opens log hl =>
    rw [hl] at hlaunched
    obtain ⟨rfl, -, -⟩ := hlaunched
    refine .inr ⟨log, hl, ?_⟩
    rw [hu.hooks]
    rfl

theorem Underway.launch (hu : r.Underway c calls) (h : r.launch = some r') : r'.Underway c calls := by
  have hlaunched := hu.launched
  rcases hu.launch_cases h with ⟨name, log, hl, hnew, rfl⟩ | ⟨log, hl, rfl⟩
  · rw [hl] at hlaunched
    obtain ⟨-, hclosed, hknown, hnames⟩ := hlaunched
    have hcalls : (r.system.join (.atGate name)).count Agent.isBreaker = calls := by
      rw [System.count_join, (Agent.atGate_counts name).2.2.2.2.2]
      exact hu.calls
    have hjoined := r.system.names_join (Agent.atGate_name name)
    refine ⟨rfl, (hu.sound.join hclosed hnew hknown).noted log, hcalls, hu.verdict, ?_⟩
    rw [Config.onward_eq hknown] at hnames
    cases hnext : c.successor? name with
    | none =>
      rw [hnext] at hnames
      exact ⟨rfl, hclosed, hjoined.trans hnames⟩
    | some next =>
      rw [hnext] at hnames
      refine ⟨rfl, hclosed, Config.successor_mem hnext, ?_⟩
      change (r.system.join (.atGate name)).names ++ _ = _
      rw [hjoined, List.append_assoc]
      exact hnames
  · rw [hl] at hlaunched
    obtain ⟨-, hclosed, hnames⟩ := hlaunched
    exact ⟨rfl, (hu.sound.openGate hclosed true).noted log, hu.calls, rfl, rfl, rfl, hnames⟩

/-- **Each step of a run leaves it as it goes on**: of the launcher, or of an agent. -/
theorem Underway.step (hu : r.Underway c calls) (hc : c.Fits) {who : Option Nat} (h : r.step who = some r') :
    r'.Underway c calls := by
  cases who with
  | none => exact hu.launch h
  | some i =>
    obtain ⟨s, hs, rfl⟩ := Option.map_eq_some_iff.1 h
    exact hu.agent_step hc hs

/-- **All through a run.** -/
theorem Underway.exec (hc : c.Fits) : ∀ (schedule : List (Option Nat)) {r r' : Run}, r.Underway c calls →
    r.exec schedule = some r' → r'.Underway c calls
  | [], r, r', hu, h => by
    cases h
    exact hu
  | who :: rest, r, r', hu, h => by
    obtain ⟨r₁, hstep, hrest⟩ := Option.bind_eq_some_iff.1 h
    exact Underway.exec hc rest (hu.step hc hstep) hrest

/-- **What every effect keeps of the guarded state holds all through a run**, if opening the gate keeps it too. -/
theorem Underway.exec_state {P : State → Prop} (hc : c.Fits)
    (hgate : ∀ s : State, P s → P { s with aborted := false, start := true })
    (heffect : ∀ {m m' : Monitor} {e : Effect}, e.Leads m m' → m.config = c → m.state.Coherent c →
      (e.insertions = 1 → m.state.buffer.len < c.capacity ∧ m.state.produced < c.totalItems) →
      (e.removals = 1 → 0 < m.state.buffer.len) → P m.state → P m'.state) :
    ∀ (schedule : List (Option Nat)) {r r' : Run}, r.Underway c calls → P r.system.monitor.state →
      r.exec schedule = some r' → P r'.system.monitor.state
  | [], r, r', _, hp, h => by
    cases h
    exact hp
  | who :: rest, r, r', hu, hp, h => by
    obtain ⟨r₁, hstep, hrest⟩ := Option.bind_eq_some_iff.1 h
    refine Underway.exec_state hc hgate heffect rest (hu.step hc hstep) ?_ hrest
    cases who with
    | none =>
      rcases hu.launch_cases hstep with ⟨name, log, -, -, rfl⟩ | ⟨log, -, rfl⟩
      · exact hp
      · exact hgate _ hp
    | some i =>
      obtain ⟨s, hs, rfl⟩ := Option.map_eq_some_iff.1 hstep
      obtain ⟨a, a', hr, -, -, ⟨-, e, ht, he⟩ | ⟨-, hfault⟩⟩ := hu.sound.step_cases hc hs
      · exact heffect he hu.sound.config hu.sound.coherent (hu.sound.turn_room hc hr ht he)
          (hu.sound.turn_stock hr ht he) hp
      · change P s.monitor.state
        rw [hfault.state]
        exact hp

theorem exec_append (r : Run) (l rest : List (Option Nat)) : r.exec (l ++ rest) = (r.exec l).bind (·.exec rest) := by
  induction l generalizing r with
  | nil => rfl
  | cons who l ih =>
    rw [List.cons_append, exec, exec, Option.bind_assoc]
    cases r.step who with
    | none => rfl
    | some r₁ => exact ih r₁

theorem exists_exec_of {β : Type} (start : Except ConfigError Run) (calls : Nat) (schedule : List (Option Nat))
    (seen : Run → β) {b : β}
    (h : (start.toOption.bind fun r₀ => (r₀.withCalls calls).exec schedule).map seen = some b) :
    ∃ r₀ r, start = .ok r₀ ∧ (r₀.withCalls calls).exec schedule = some r ∧ seen r = b := by
  obtain ⟨r, hr, hseen⟩ := Option.map_eq_some_iff.1 h
  obtain ⟨r₀, hr₀, hexec⟩ := Option.bind_eq_some_iff.1 hr
  cases start with
  | error e => cases hr₀
  | ok r₁ =>
    cases hr₀
    exact ⟨r₀, r, rfl, hexec, hseen⟩

theorem exists_exec {β : Type} (c : Config) (calls : Nat) (schedule : List (Option Nat)) (seen : Run → β) {b : β}
    (h : ((Run.start c []).toOption.bind fun r₀ => (r₀.withCalls calls).exec schedule).map seen = some b) :
    ∃ r₀ r, Run.start c [] = .ok r₀ ∧ (r₀.withCalls calls).exec schedule = some r ∧ seen r = b :=
  exists_exec_of (Run.start c []) calls schedule seen h

end Run
end Handover
