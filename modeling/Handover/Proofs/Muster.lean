import Handover.Proofs.Budget
import Handover.Proofs.Refusal
/-!
# Muster — how the agents of a run are brought in

Whatever the hooks of a run do to its monitor, the launcher goes through the roster: it takes the steps before an agent
in their order, brings the agent in, and goes on to the next one until a step refuses an agent.  `agenda` lists all
these steps in the order in which they are taken.  `Run.Mustered` says how far the launcher has come with it and who is
there, and holds all through every run.
-/
namespace Handover

/-! ## What an action leaves alone -/

namespace Act

variable {α β : Type}

/-- However the act ends, the run is of the same size afterwards. -/
def KeepsConfig (x : Act α) : Prop := ∀ m, (after x m).config = m.config

namespace KeepsConfig

theorem bind {x : Act α} {f : α → Act β} (hx : KeepsConfig x) (hf : ∀ a, KeepsConfig (f a)) :
    KeepsConfig (x >>= f) := by
  intro m
  have hm := hx m
  cases h : x m with
  | ok a m' =>
    rw [after_ok h] at hm
    rw [after_bind h, hf a m', hm]
  | error e m' =>
    rw [after_error h] at hm
    rw [after_error (bind_error h), hm]

theorem pure (a : α) : KeepsConfig (Pure.pure a) := fun _ => rfl

theorem throw (f : Fault) : KeepsConfig (MonadExcept.throw f : Act α) := fun _ => rfl

theorem get : KeepsConfig (MonadState.get : Act Monitor) := fun _ => rfl

theorem state : KeepsConfig Act.state := fun _ => rfl

theorem setState (s : State) : KeepsConfig (Act.setState s) := fun _ => rfl

theorem say (n : Note) : KeepsConfig (Act.say n) := fun _ => rfl

theorem lift (x : Except Fault α) : KeepsConfig (Act.lift x) := by
  cases x with
  | ok a => exact pure a
  | error f => exact throw f

theorem of_counts {x : Act α} (h : ∀ m, Counts x m) : KeepsConfig x := fun m => (h m).1.config

theorem post (side : Side) : KeepsConfig (Act.post side) :=
  .bind .get fun _ => .bind (.lift _) fun _ _ => rfl

theorem pass (side : Side) : KeepsConfig (Act.pass side) :=
  .bind .get fun _ => .bind (fun _ => rfl) fun _ => .lift _

theorem fail : KeepsConfig Act.fail := by
  refine .bind ?_ fun first => ?_
  · refine .bind .state fun s => ?_
    split
    · exact .pure false
    · exact .bind (.setState _) fun _ => .bind (.say _) fun _ => .pure true
  · split
    · exact .bind (.post .free) fun _ => .bind (.post .filled) fun _ => .pure true
    · exact .pure false

theorem use (how : PermitUse) (side : Side) : KeepsConfig (Action.use how side).perform := by
  intro m
  cases htake : m.take? side with
  | none =>
    have hperform : (Action.use how side).perform m = .ok .wouldBlock m := by
      rw [Action.perform, bind_ok get_ok, htake]
      rfl
    rw [after_ok hperform]
  | some m' =>
    have hset : (set m' : Act PUnit) m = .ok ⟨⟩ m' := rfl
    rw [Action.perform, after_bind get_ok, htake]
    simp only
    rw [after_bind hset, ← (Monitor.take?_eq_some htake).2.2]
    cases how with
    | pass => exact bind (.pass side) (fun _ => .pure _) m'
    | giveBack => exact bind (.post side) (fun _ => .pure _) m'
    | forget => rfl

end KeepsConfig
end Act

open Act in
/-- **An action does not change what run it is.** -/
theorem Action.keepsConfig (action : Action) : KeepsConfig action.perform := by
  cases action with
  | openGate proceed =>
    refine .bind (.bind .state fun s => .bind (.setState _) fun _ => ?_) fun _ => .pure _
    split
    · exact .pure ()
    · exact .say _
  | fail => exact .bind .fail fun _ => .pure _
  | use how side => exact .use how side
  | release side => exact .bind (.post side) fun _ => .pure _
  | insert producer sequence =>
    exact .bind (.lift _) fun item => .bind (.bind .state fun s => .bind (.lift _) fun _ => .setState _) fun _ => .pure _
  | remove =>
    refine .bind (.bind .state fun s => .bind (.lift _) fun taken => ?_) fun _ => .pure _
    exact .bind (.setState _) fun _ => .pure _
  | countProduced total =>
    exact .bind .get fun m => .bind (.of_counts (countProduced_counts _)) fun _ => .pure _
  | countConsumed => exact .bind (.of_counts countConsumed_counts) fun _ => .pure _
  | record kind producer sequence =>
    refine .bind ?_ fun item => .bind (.of_counts (record_counts kind item)) fun _ => .pure _
    cases producer with
    | none => exact .pure none
    | some p => exact .bind (.lift _) fun _ => .pure _
  | complete => exact .bind (.of_counts complete_counts) fun _ => .pure _

theorem System.act_fst {α : Type} (s : System) (x : Act α) :
    (s.act x).1 = { s with monitor := Act.after x s.monitor } := by
  unfold System.act Act.after
  cases x s.monitor <;> rfl

/-- The agent is the same one, at another place or at the same. -/
inductive Agent.Becomes : Agent → Agent → Prop where
  | producer {id : Nat} {place place' : ProducerPlace} : Becomes (.producer id place) (.producer id place')
  | consumer {place place' : ConsumerPlace} : Becomes (.consumer place) (.consumer place')
  | watcher {id : Nat} {place place' : WatcherPlace} : Becomes (.watcher id place) (.watcher id place')
  | starter {verdict verdict' : Option Bool} : Becomes (.starter verdict) (.starter verdict')
  | finisher {found found' : Option (Bool × Bool)} : Becomes (.finisher found) (.finisher found')
  | breaker {place place' : BreakerPlace} : Becomes (.breaker place) (.breaker place')

/-- **A step leaves an agent what it is**, whatever it finds. -/
theorem Agent.step_becomes {m m' : Monitor} {a a' : Agent} (h : a.step m = some (a', m')) : a.Becomes a' := by
  cases a with
  | producer id place =>
    obtain ⟨place', -, rfl⟩ := exists_place (f := Agent.producer id) h
    exact .producer
  | consumer place =>
    obtain ⟨place', -, rfl⟩ := exists_place (f := Agent.consumer) h
    exact .consumer
  | watcher id place =>
    obtain ⟨place', -, rfl⟩ := exists_place (f := Agent.watcher id) h
    exact .watcher
  | starter verdict =>
    obtain ⟨-, -, proceed, rfl⟩ := starter_step h
    exact .starter
  | finisher found =>
    obtain ⟨-, -, flags, rfl⟩ := finisher_step h
    exact .finisher
  | breaker place =>
    obtain ⟨place', -, rfl⟩ := exists_place (f := Agent.breaker) h
    exact .breaker

theorem Agent.step_name {m m' : Monitor} {a a' : Agent} (h : a.step m = some (a', m')) : a'.name? = a.name? := by
  cases step_becomes h <;> rfl

/-! ## The steps before the agents -/

/-- The steps to take before these agents, each with the agent that it comes before. -/
def agenda (hooks : List Hook) (names : List AgentName) : List (AgentName × HookStep) :=
  names.flatMap fun name => (stepsBefore hooks name).map (name, ·)

theorem mem_agenda {hooks : List Hook} {names : List AgentName} {name : AgentName} {step : HookStep} :
    (name, step) ∈ agenda hooks names ↔ name ∈ names ∧ (⟨name, step⟩ : Hook) ∈ hooks := by
  simp only [agenda, stepsBefore, List.mem_flatMap, List.mem_map, List.mem_filter, decide_eq_true_eq, Prod.mk.injEq]
  constructor
  · rintro ⟨other, hother, step', ⟨k, ⟨hk, rfl⟩, rfl⟩, rfl, rfl⟩
    exact ⟨hother, hk⟩
  · rintro ⟨hname, hk⟩
    exact ⟨name, hname, step, ⟨_, ⟨hk, rfl⟩, rfl⟩, rfl, rfl⟩

namespace Config

/-- The agents that come after this one. -/
def later (c : Config) (name : AgentName) : List AgentName := (c.successor? name).elim [] c.onward

theorem agenda_onward {c : Config} {name : AgentName} (h : name ∈ c.roster) (hooks : List Hook) :
    agenda hooks (c.onward name) = (stepsBefore hooks name).map (name, ·) ++ agenda hooks (c.later name) := by
  rw [onward_eq h]
  exact List.flatMap_cons

end Config

/-- The agents that are there, and the steps that were taken for it, when no more agents are brought in. -/
def Gathered (c : Config) (hooks : List Hook) (names : List AgentName) (taken : List (AgentName × HookStep)) :
    Option Refusal → Prop
  | none => names = c.roster ∧ agenda hooks c.roster = taken
  | some refusal => names ++ c.onward refusal.name = c.roster ∧
      ∃ rest, agenda hooks c.roster = taken ++ (refusal.name, .refuse refusal.cause) :: rest

/-- How far the launcher has come, with these agents there and these steps taken. -/
def Launcher.Reached (c : Config) (hooks : List Hook) (names : List AgentName) (taken : List (AgentName × HookStep)) :
    Launcher → Prop
  | preparing steps name => name ∈ c.roster ∧ names ++ c.onward name = c.roster ∧
      agenda hooks c.roster = taken ++ (steps.map (name, ·) ++ agenda hooks (c.later name))
  | opening refusal | waiting refusal => Gathered c hooks names taken refusal

namespace Run

/-- **Who is there, and which steps were taken, all through a run.** -/
structure Mustered (c : Config) (hooks : List Hook) (taken : List (AgentName × HookStep)) (r : Run) : Prop where
  staged : r.hooks = hooks
  config : r.system.monitor.config = c
  named : ∀ a ∈ r.system.agents.toList, a.name?.isSome = true
  willing : ∀ t ∈ taken, t.2.isRefusal = false
  launched : r.launcher.Reached c hooks r.system.names taken

variable {c : Config} {hooks : List Hook} {taken : List (AgentName × HookStep)} {r r' : Run}

theorem Mustered.start (h : Run.start c hooks = .ok r) : r.Mustered c hooks [] := by
  have hvalid := valid_of_start h
  rw [start_eq hvalid, Except.ok.injEq] at h
  subst h
  refine ⟨rfl, rfl, fun a ha => absurd ha List.not_mem_nil, fun t ht => absurd ht List.not_mem_nil, List.mem_cons_self,
    rfl, ?_⟩
  exact Config.agenda_onward (List.mem_cons_self : AgentName.consumer ∈ c.roster) hooks

namespace Mustered

theorem refuses (h : r.Mustered c hooks taken) {cause : String} {steps : List HookStep} {name : AgentName}
    (hl : r.launcher = .preparing (.refuse cause :: steps) name) :
    ({ r with launcher := .opening (some ⟨name, cause⟩) } : Run).Mustered c hooks taken := by
  have hreached := h.launched
  rw [hl] at hreached
  exact ⟨h.staged, h.config, h.named, h.willing, hreached.2.1, _, hreached.2.2⟩

theorem acts (h : r.Mustered c hooks taken) {action : Action} {steps : List HookStep} {name : AgentName}
    (hl : r.launcher = .preparing (.act action :: steps) name) :
    ({ r.act action.perform with launcher := .preparing steps name } : Run).Mustered c hooks
      (taken ++ [(name, .act action)]) := by
  have hreached := h.launched
  rw [hl] at hreached
  have hact : r.act action.perform =
      { r with system := { r.system with monitor := Act.after action.perform r.system.monitor } } := by
    rw [Run.act, System.act_fst]
  rw [hact]
  refine ⟨h.staged, (action.keepsConfig _).trans h.config, h.named, fun t ht => ?_, hreached.1, hreached.2.1, ?_⟩
  · rw [List.mem_append, List.mem_singleton] at ht
    rcases ht with ht | rfl
    · exact h.willing t ht
    · rfl
  · rw [hreached.2.2, List.append_assoc]
    rfl

theorem joins (h : r.Mustered c hooks taken) {name : AgentName} (log : List Note)
    (hl : r.launcher = .preparing [] name) :
    ({ r with
        system := { r.system.join (.atGate name) with monitor := { r.system.monitor with log := log } }
        launcher := (r.system.monitor.config.successor? name).elim (.opening none)
          fun next => .preparing (stepsBefore r.hooks next) next } : Run).Mustered c hooks taken := by
  have hreached := h.launched
  rw [hl] at hreached
  obtain ⟨hname, honward, hagenda⟩ := hreached
  rw [Config.onward_eq hname] at honward
  rw [List.map_nil, List.nil_append, Config.later] at hagenda
  have hnames : ({ r.system.join (.atGate name) with monitor := { r.system.monitor with log := log } } : System).names =
      r.system.names ++ [name] := r.system.names_join (Agent.atGate_name name)
  have hnamed : (Agent.atGate name).name?.isSome = true := by
    rw [Agent.atGate_name]
    rfl
  refine ⟨h.staged, h.config, System.forall_join h.named hnamed, h.willing, ?_⟩
  rw [hnames, h.config, h.staged]
  cases hnext : c.successor? name with
  | none =>
    rw [hnext] at honward hagenda
    exact ⟨honward, hagenda.trans (List.append_nil taken)⟩
  | some next =>
    rw [hnext] at honward hagenda
    have hmem := Config.successor_mem hnext
    refine ⟨hmem, ?_, ?_⟩
    · rw [List.append_assoc]
      exact honward
    · rw [hagenda, Option.elim_some, Config.agenda_onward hmem]

theorem opens (h : r.Mustered c hooks taken) {refusal : Option Refusal} (log : List Note)
    (hl : r.launcher = .opening refusal) :
    ({ r with
        system := { r.system with monitor := { r.system.monitor with
          state := { r.system.monitor.state with aborted := !refusal.isNone, start := true }, log := log } }
        launcher := .waiting refusal } : Run).Mustered c hooks taken := by
  have hreached := h.launched
  rw [hl] at hreached
  exact ⟨h.staged, h.config, h.named, h.willing, hreached⟩

/-- A step of an agent leaves the names and the launcher as they are. -/
theorem moves (h : r.Mustered c hooks taken) {i : Nat} {s : System} (hs : r.system.step i = some s) :
    ({ r with system := s } : Run).Mustered c hooks taken := by
  obtain ⟨-, a, a', hreplaces, ha, -⟩ := System.step_eq_some hs
  have hname := Agent.step_name ha
  have hnames := hreplaces.names_eq hname
  refine ⟨h.staged, (Agent.step_spends ha).gate.config.trans h.config, hreplaces.forall_after h.named ?_, h.willing, ?_⟩
  · rw [hname]
    exact h.named a hreplaces.mem
  · rw [hnames]
    exact h.launched

theorem step (h : r.Mustered c hooks taken) {who : Option Nat} (hstep : r.step who = some r') :
    ∃ taken', r'.Mustered c hooks taken' := by
  cases who with
  | none =>
    cases launches hstep with
    | refuses hl => exact ⟨_, h.refuses hl⟩
    | acts hl => exact ⟨_, h.acts hl⟩
    | joins log hl => exact ⟨_, h.joins log hl⟩
    | opens log hl => exact ⟨_, h.opens log hl⟩
  | some i =>
    obtain ⟨s, hs, rfl⟩ := Option.map_eq_some_iff.1 hstep
    exact ⟨_, h.moves hs⟩

end Mustered

theorem waiting_of_launch (h : r.launch = none) : ∃ refusal, r.launcher = .waiting refusal := by
  unfold launch at h
  split at h
  · cases h
  · cases h
  · simp only at h
    split at h <;> cases h
  · cases h
  · rename_i refusal hl
    exact ⟨refusal, hl⟩

/-- **A launcher goes through its agenda in every run**, whatever its hooks do. -/
theorem Mustered.exec : ∀ (schedule : List (Option Nat)) {taken : List (AgentName × HookStep)} {r r' : Run},
    r.Mustered c hooks taken → r.exec schedule = some r' → ∃ taken', r'.Mustered c hooks taken'
  | [], taken, r, r', h, hexec => by
    cases hexec
    exact ⟨taken, h⟩
  | who :: rest, taken, r, r', h, hexec => by
    obtain ⟨r₁, hstep, hrest⟩ := Option.bind_eq_some_iff.1 hexec
    obtain ⟨taken₁, h₁⟩ := h.step hstep
    exact Mustered.exec rest h₁ hrest

end Run
end Handover
