import Handover.Proofs.Insertions
import Handover.Proofs.Shortfall
/-!
# Refusal — runs that may be aborted

Hooks that only refuse leave the monitor alone: the run goes on with the agents that are there, and the gate tells them
to leave.  All through such a run the system is sound, and it is balanced or short of one place
(`Run.SoundUnderRefusal`), whoever fails it and whether or not there is room for that.
-/
namespace Handover

def HookStep.isRefusal : HookStep → Bool
  | refuse _ => true
  | act _ => false

theorem isRefusal_of_stepsBefore {hooks : List Hook} (h : ∀ k ∈ hooks, k.step.isRefusal = true) (name : AgentName) :
    ∀ step ∈ stepsBefore hooks name, step.isRefusal = true := by
  intro step hstep
  obtain ⟨k, hk, rfl⟩ := List.mem_map.1 hstep
  exact h k (List.mem_filter.1 hk).1

/-- The launcher has come as far as the agents that are there and the gate show, or has been refused one. -/
def Launcher.Follows (c : Config) (s : System) : Launcher → Prop
  | preparing steps name => (∀ step ∈ steps, step.isRefusal = true) ∧ s.monitor.state.start = false ∧
      name ∈ c.roster ∧ s.names ++ c.onward name = c.roster
  | opening _ => s.monitor.state.start = false
  | waiting _ => s.monitor.state.start = true

namespace Run

variable {c : Config} {r r' : Run}

/-- **What holds all through a run whose hooks only refuse**, whoever fails it. -/
structure SoundUnderRefusal (c : Config) (r : Run) : Prop where
  hooks : ∀ k ∈ r.hooks, k.step.isRefusal = true
  sound : r.system.Sound c
  accounts : r.system.BalancedOrShort c
  launched : r.launcher.Follows c r.system

theorem SoundUnderRefusal.start (hc : c.Fits) {hooks : List Hook} (hhooks : ∀ k ∈ hooks, k.step.isRefusal = true)
    (h : Run.start c hooks = .ok r) (calls : Nat) : (r.withCalls calls).SoundUnderRefusal c := by
  rw [start_eq hc.valid, Except.ok.injEq] at h
  subst h
  have hagents : (#[] ++ Array.replicate calls (Agent.breaker (.calling .mark))).toList =
      List.replicate calls (.breaker (.calling .mark)) := by simp
  have hsound := sound_fresh hc (s := { monitor := (Monitor.fresh c).say (.starting c), agents := _ }) rfl hagents rfl
  refine ⟨hhooks, hsound, (.inl (hsound.balanced (.of_not_failed rfl))), isRefusal_of_stepsBefore hhooks _, rfl,
    List.mem_cons_self, ?_⟩
  unfold System.names withCalls
  rw [hagents, List.filterMap_replicate_of_none rfl]
  rfl

theorem SoundUnderRefusal.not_acts (hu : r.SoundUnderRefusal c) {action : Action} {steps : List HookStep}
    {name : AgentName} : r.launcher ≠ .preparing (.act action :: steps) name := by
  intro hl
  have hlaunched := hu.launched
  rw [hl] at hlaunched
  cases hlaunched.1 _ List.mem_cons_self

theorem SoundUnderRefusal.launch (hu : r.SoundUnderRefusal c) (h : r.launch = some r') : r'.SoundUnderRefusal c := by
  have hlaunched := hu.launched
  cases launches h with
  | refuses hl =>
    rw [hl] at hlaunched
    exact ⟨hu.hooks, hu.sound, hu.accounts, hlaunched.2.1⟩
  | acts hl => exact absurd hl hu.not_acts
  | @joins name log hl =>
    rw [hl] at hlaunched
    obtain ⟨-, hclosed, hknown, hnames⟩ := hlaunched
    have hnew := Config.not_mem_of_onward hknown hnames
    have hjoined := r.system.names_join (Agent.atGate_name name)
    refine ⟨hu.hooks, (hu.sound.join hclosed hnew hknown).noted log, 
      (hu.accounts.join name).withGate r.system.monitor.state.aborted r.system.monitor.state.start log, ?_⟩
    rw [Config.onward_eq hknown] at hnames
    simp only [hu.sound.config]
    cases hnext : c.successor? name with
    | none => exact hclosed
    | some next =>
      rw [hnext] at hnames
      refine ⟨isRefusal_of_stepsBefore hu.hooks next, hclosed, Config.successor_mem hnext, ?_⟩
      change (r.system.join (.atGate name)).names ++ _ = _
      rw [hjoined, List.append_assoc]
      exact hnames
  | @opens refusal log hl =>
    rw [hl] at hlaunched
    exact ⟨hu.hooks, (hu.sound.openGate hlaunched refusal.isNone).noted log,
      hu.accounts.withGate (!refusal.isNone) true log, rfl⟩

theorem SoundUnderRefusal.agent_step (hu : r.SoundUnderRefusal c) (hc : c.Fits) {i : Nat} {s : System}
    (h : r.system.step i = some s) : ({ r with system := s } : Run).SoundUnderRefusal c := by
  obtain ⟨hstart, -, hnames, -⟩ := hu.sound.step_keeps hc h
  refine ⟨hu.hooks, hu.sound.step hc h, hu.accounts.step hu.sound hc h, ?_⟩
  have hlaunched := hu.launched
  change r.launcher.Follows c s
  cases hl : r.launcher with
  | preparing steps name =>
    rw [hl] at hlaunched
    exact ⟨hlaunched.1, hstart.trans hlaunched.2.1, hlaunched.2.2.1, by rw [hnames]; exact hlaunched.2.2.2⟩
  | opening | waiting =>
    rw [hl] at hlaunched
    exact hstart.trans hlaunched

theorem SoundUnderRefusal.step (hu : r.SoundUnderRefusal c) (hc : c.Fits) {who : Option Nat} (h : r.step who = some r') :
    r'.SoundUnderRefusal c := by
  cases who with
  | none => exact hu.launch h
  | some i =>
    obtain ⟨s, hs, rfl⟩ := Option.map_eq_some_iff.1 h
    exact hu.agent_step hc hs

theorem SoundUnderRefusal.exec (hc : c.Fits) : ∀ (schedule : List (Option Nat)) {r r' : Run}, r.SoundUnderRefusal c →
    r.exec schedule = some r' → r'.SoundUnderRefusal c
  | [], r, r', hu, h => by
    cases h
    exact hu
  | who :: rest, r, r', hu, h => by
    obtain ⟨r₁, hstep, hrest⟩ := Option.bind_eq_some_iff.1 h
    exact SoundUnderRefusal.exec hc rest (hu.step hc hstep) hrest

end Run
end Handover
