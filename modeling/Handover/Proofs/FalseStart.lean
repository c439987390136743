import Handover.Proofs.Blame
import Handover.Proofs.Frozen
import Handover.Proofs.Gate
import Mathlib.Data.List.TakeWhile
/-!
# FalseStart — a start that fails has no effect

A start fails if a hook refuses an agent or fails the run before the gate opens.  Then the gate turns away everybody who
is there.  Nothing but the flags of the guarded state and the places that a call adds is ever changed
(`System.Untouched`); each agent comes back with nothing done, and the run returns the error of the first refusal, or
that no watcher has seen the end.
-/
namespace Handover

/-! ## What comes of the hooks -/

/-- The first refusal among these steps. -/
def firstRefusal? (steps : List (AgentName × HookStep)) : Option Refusal :=
  steps.findSome? fun (name, step) => match step with
    | .refuse cause => some ⟨name, cause⟩
    | .act _ => none

/-- Among the steps before the first refusal is one that fails the run. -/
def callsFail (steps : List (AgentName × HookStep)) : Bool :=
  (steps.takeWhile fun t => !t.2.isRefusal).any fun t => t.2 = .act .fail

/-- A step that keeps the run from starting. -/
def HookStep.spoils : HookStep → Bool
  | refuse _ => true
  | act action => action = .fail

/-- The agents that are brought in until one is refused. -/
def Config.broughtIn (c : Config) (refusal : Option Refusal) : List AgentName :=
  refusal.elim c.roster fun refused => c.roster.takeWhile (· ≠ refused.name)

/-- The error of a run that was not let start. -/
def RunError.ofStart (refusal : Option Refusal) : RunError := refusal.elim .unnotified .refused

theorem firstRefusal_of_willing {steps : List (AgentName × HookStep)} (h : ∀ t ∈ steps, t.2.isRefusal = false) :
    firstRefusal? steps = none := by
  refine List.findSome?_eq_none_iff.2 fun t ht => ?_
  obtain ⟨name, step⟩ := t
  cases step with
  | act => rfl
  | refuse => cases h _ ht

/-- **What is known when no more agents are brought in**: the refusal is the first one, who is there was brought in
before it, and whether the run was failed on the way. -/
theorem Gathered.outcome {c : Config} {hooks : List Hook} {names : List AgentName}
    {taken : List (AgentName × HookStep)} {refusal : Option Refusal} (h : Gathered c hooks names taken refusal)
    (hwilling : ∀ t ∈ taken, t.2.isRefusal = false) :
    firstRefusal? (agenda hooks c.roster) = refusal ∧ names = c.broughtIn refusal ∧
      callsFail (agenda hooks c.roster) = taken.any fun t => t.2 = .act .fail := by
  have hall : ∀ t ∈ taken, (!t.2.isRefusal) = true := fun t ht => by rw [hwilling t ht]; rfl
  cases refusal with
  | none =>
    obtain ⟨hnames, hagenda⟩ := h
    rw [hagenda, callsFail, List.takeWhile_eq_self_iff.2 hall]
    exact ⟨firstRefusal_of_willing hwilling, hnames, rfl⟩
  | some refused =>
    obtain ⟨hnames, rest, hagenda⟩ := h
    have hknown : refused.name ∈ c.roster := by
      have hmem : (refused.name, HookStep.refuse refused.cause) ∈ agenda hooks c.roster := by simp [hagenda]
      exact (mem_agenda.1 hmem).1
    have hnew := Config.not_mem_of_onward hknown hnames
    refine ⟨?_, ?_, ?_⟩
    · rw [hagenda, firstRefusal?, List.findSome?_append]
      change (firstRefusal? taken).or _ = _
      rw [firstRefusal_of_willing hwilling]
      rfl
    · rw [Config.broughtIn, Option.elim_some, ← hnames, Config.onward_eq hknown, List.takeWhile_append_of_pos]
      · simp
      · intro x hx
        exact decide_eq_true fun heq => hnew (heq ▸ hx)
    · rw [hagenda, callsFail, List.takeWhile_append_of_pos hall,
        List.takeWhile_cons_of_neg (by simp [HookStep.isRefusal]), List.append_nil]

/-! ## Agents that are turned away -/

namespace Agent

/-- The agent with this name, back with nothing done: it counted no item, or has nothing to report. -/
def turnedAway : AgentName → Agent
  | .producer id => producer id (.finished 0)
  | .consumer => consumer (.finished 0)
  | .watcher id => watcher id (.finished none)

theorem turnedAway_name (name : AgentName) : (turnedAway name).name? = some name := by
  cases name <;> rfl

/-- Who is back takes no step and did not stop on a fault, and fell short only for want of a report. -/
theorem turnedAway_back (name : AgentName) : (∀ m, (turnedAway name).step m = none) ∧
    (turnedAway name).outcome?.isSome = true ∧ Run.stoppedOnFault (turnedAway name) = false ∧
      ∀ e, (turnedAway name).shortfall? = some e → e = .unnotified := by
  cases name with
  | producer | consumer => exact ⟨fun _ => rfl, rfl, rfl, fun e he => by cases he⟩
  | watcher =>
    refine ⟨fun _ => rfl, rfl, rfl, fun e he => ?_⟩
    cases he
    rfl

theorem atGate_step_closed {m : Monitor} (h : m.state.start = false) (name : AgentName) :
    (atGate name).step m = none := by
  cases name <;> simp [atGate, Agent.step, ProducerPlace.step, ConsumerPlace.step, WatcherPlace.step, h]

/-- **An agent that is not let in leaves a note and nothing else.** -/
theorem atGate_step_away {m : Monitor} (hopen : m.state.start = true) (haway : m.turnsAway = true) (name : AgentName) :
    (atGate name).step m = some (turnedAway name, m.say (.startAborted name)) := by
  cases name <;>
    simp [atGate, turnedAway, Agent.step, ProducerPlace.step, ConsumerPlace.step, WatcherPlace.step, hopen, haway]

theorem atGate_isAtGate (name : AgentName) : (atGate name).isAtGate = true := by
  cases name <;> rfl

theorem turnedAway_isAtGate (name : AgentName) : (turnedAway name).isAtGate = false := by
  cases name <;> rfl

end Agent

/-! ## A system in which nothing was done -/

namespace System

/-- **Nothing was done**: of the guarded state only the flags differ from a new run, places were added only by a call
that failed the run, and every agent is at the gate or was turned away from it. -/
structure Untouched (c : Config) (failed : Bool) (s : System) : Prop where
  state : s.monitor.state = { State.fresh c with
    done := failed, failed := failed, start := s.monitor.state.start, aborted := s.monitor.state.aborted }
  slots : ∀ side, (s.monitor.slots.get side).value = ((Slots.ofCapacity c.capacity).get side).value + failed.toNat
  standing : s.halted = false
  idle : ∀ a ∈ s.agents.toList, ∃ name, a = .atGate name ∨ a = .turnedAway name
  turned : s.monitor.state.start = true → s.monitor.turnsAway = true

variable {c : Config} {failed : Bool} {s s' : System}

namespace Untouched

theorem noted (h : s.Untouched c failed) (log : List Note) :
    ({ s with monitor := { s.monitor with log := log } } : System).Untouched c failed :=
  ⟨h.state, h.slots, h.standing, h.idle, h.turned⟩

theorem join (h : s.Untouched c failed) (name : AgentName) : (s.join (.atGate name)).Untouched c failed :=
  ⟨h.state, h.slots, h.standing, forall_join h.idle ⟨name, .inl rfl⟩, h.turned⟩

theorem opened (h : s.Untouched c failed) {aborted : Bool} (haway : aborted = true ∨ failed = true) :
    ({ s with monitor := { s.monitor with
        state := { s.monitor.state with aborted := aborted, start := true } } } : System).Untouched c failed := by
  refine ⟨?_, h.slots, h.standing, h.idle, fun _ => ?_⟩
  · simp only
    rw [h.state]
  · have hfailed : s.monitor.state.failed = failed := by rw [h.state]
    simpa [Monitor.turnsAway, hfailed] using haway

/-- **A call that fails the run adds its places once.** -/
theorem fails (h : s.Untouched c failed) (hclosed : s.monitor.state.start = false) (hroom : c.capacity < slotLimit) :
    ({ s with monitor := Act.after Action.fail.perform s.monitor } : System).Untouched c true ∧
      (Act.after Action.fail.perform s.monitor).state.start = false := by
  have hfailed : s.monitor.state.failed = failed := by rw [h.state]
  cases failed with
  | true =>
    have hcall : Action.fail.perform s.monitor = .ok (.flag false) s.monitor := by
      rw [Action.perform, Act.bind_ok (Act.fail_again hfailed)]
      rfl
    rw [Act.after_ok hcall]
    exact ⟨h, hclosed⟩
  | false =>
    have hbelow : ∀ side, (s.monitor.slots.get side).value < slotLimit := by
      intro side
      rw [h.slots]
      cases side with
      | free => exact hroom
      | filled => exact Nat.lt_of_le_of_lt (Nat.zero_le _) hroom
    obtain ⟨slots, log, hfail, hvalues⟩ := Act.fail_first hfailed hbelow
    have hcall : Action.fail.perform s.monitor =
        .ok (.flag true) { s.monitor with state := s.monitor.state.marked, slots := slots, log := log } := by
      rw [Action.perform, Act.bind_ok hfail]
      rfl
    rw [Act.after_ok hcall]
    refine ⟨⟨?_, fun side => ?_, h.standing, h.idle, fun hopen => ?_⟩, hclosed⟩
    · simp only [State.marked]
      rw [h.state]
    · simp only [hvalues, h.slots]
      rfl
    · cases hclosed.symm.trans hopen

/-- **A step sends one agent from the gate home.** -/
theorem step (h : s.Untouched c failed) {i : Nat} (hs : s.step i = some s') :
    s'.Untouched c failed ∧ s'.count Agent.isAtGate + 1 = s.count Agent.isAtGate ∧
      s'.monitor.state = s.monitor.state := by
  obtain ⟨-, a, a', hreplaces, ha, hhalted⟩ := step_eq_some hs
  obtain ⟨name, rfl | rfl⟩ := h.idle a hreplaces.mem
  · cases hopen : s.monitor.state.start with
    | false =>
      rw [Agent.atGate_step_closed hopen] at ha
      cases ha
    | true =>
      rw [Agent.atGate_step_away hopen (h.turned hopen), Option.some.injEq, Prod.mk.injEq] at ha
      obtain ⟨rfl, hm⟩ := ha
      have hcount := hreplaces.count_eq Agent.isAtGate
      rw [Agent.atGate_isAtGate, Agent.turnedAway_isAtGate] at hcount
      refine ⟨⟨?_, ?_, ?_, hreplaces.forall_after h.idle ⟨name, .inr rfl⟩, ?_⟩, hcount, ?_⟩
      · rw [← hm]
        exact h.state
      · rw [← hm]
        exact h.slots
      · rw [hhalted]
        cases name <;> rfl
      · rw [← hm]
        exact h.turned
      · rw [← hm]
        rfl
  · rw [(Agent.turnedAway_back name).1] at ha
    cases ha

/-- Behind the open gate somebody can go home as long as anybody is there. -/
theorem exists_step (h : s.Untouched c failed) (hopen : s.monitor.state.start = true) (hleft : s.unfinished ≠ 0) :
    ∃ i, (s.step i).isSome = true := by
  obtain ⟨a, ha, hout⟩ := List.countP_pos_iff.1 (Nat.pos_of_ne_zero hleft)
  obtain ⟨name, rfl | rfl⟩ := h.idle a ha
  · obtain ⟨i, hi⟩ := List.mem_iff_getElem?.1 ha
    refine ⟨i, ?_⟩
    rw [step_isSome_eq h.standing (Array.getElem?_toList.symm.trans hi),
      Agent.atGate_step_away hopen (h.turned hopen)]
    rfl
  · have hback := (Agent.turnedAway_back name).2.1
    rw [Option.isNone_iff_eq_none.1 hout] at hback
    cases hback

/-- When all are back, each was turned away. -/
theorem agents_eq (h : s.Untouched c failed) (hback : s.unfinished = 0) :
    s.agents.toList = s.names.map .turnedAway := by
  have hturned : ∀ a ∈ s.agents.toList, a.name?.map .turnedAway = some a := by
    intro a ha
    obtain ⟨name, rfl | rfl⟩ := h.idle a ha
    · have hout := List.countP_eq_zero.1 hback _ ha
      cases name <;> exact absurd rfl hout
    · rw [Agent.turnedAway_name]
      rfl
  rw [names, List.map_filterMap, List.filterMap_congr hturned, List.filterMap_some]

end Untouched
end System

/-! ## All through a start that fails -/

def Launcher.isWaiting : Launcher → Bool
  | waiting _ => true
  | _ => false

namespace Run

/-- **What holds all through a run that is kept from starting**, with these steps of its hooks taken. -/
structure Stalled (c : Config) (hooks : List Hook) (taken : List (AgentName × HookStep)) (r : Run) : Prop where
  mustered : r.Mustered c hooks taken
  untouched : r.system.Untouched c (taken.any fun t => t.2 = .act .fail)
  gate : r.system.monitor.state.start = r.launcher.isWaiting

/-- The steps that are left to the launcher, and to the agents that are at the gate or are to come. -/
def toGo (c : Config) (hooks : List Hook) (r : Run) : Nat :=
  r.system.count Agent.isAtGate + match r.launcher with
    | .preparing steps name => steps.length + (agenda hooks (c.later name)).length + 2 * (c.onward name).length + 1
    | .opening _ => 1
    | .waiting _ => 0

variable {c : Config} {hooks : List Hook} {taken : List (AgentName × HookStep)} {r r' r₀ : Run}

theorem Stalled.start (h : Run.start c hooks = .ok r) :
    r.Stalled c hooks [] ∧ r.toGo c hooks = (agenda hooks c.roster).length + 2 * c.roster.length + 1 := by
  have hmustered := Mustered.start h
  have hagenda := Config.agenda_onward (List.mem_cons_self : AgentName.consumer ∈ c.roster) hooks
  rw [start_eq (valid_of_start h), Except.ok.injEq] at h
  subst h
  refine ⟨⟨hmustered, ⟨rfl, fun side => ?_, rfl, fun a ha => absurd ha List.not_mem_nil, fun hopen => ?_⟩, rfl⟩, ?_⟩
  · rfl
  · cases hopen
  · change agenda hooks c.roster = _ at hagenda
    rw [hagenda, List.length_append, List.length_map]
    exact Nat.zero_add _

/-- A step of an agent. -/
theorem Stalled.moves (h : r.Stalled c hooks taken) {i : Nat} {s : System} (hs : r.system.step i = some s) :
    ({ r with system := s } : Run).Stalled c hooks taken ∧
      ({ r with system := s } : Run).toGo c hooks < r.toGo c hooks := by
  obtain ⟨huntouched, hcount, hstate⟩ := h.untouched.step hs
  refine ⟨⟨h.mustered.moves hs, huntouched, ?_⟩, ?_⟩
  · change s.monitor.state.start = _
    rw [hstate]
    exact h.gate
  · unfold toGo
    simp only
    omega

theorem callsFail_of_split {steps taken rest : List (AgentName × HookStep)} {name : AgentName}
    (hsplit : steps = taken ++ (name, .act .fail) :: rest) (hwilling : ∀ t ∈ taken, t.2.isRefusal = false) :
    callsFail steps = true := by
  have hall : ∀ t ∈ taken, (!t.2.isRefusal) = true := fun t ht => by rw [hwilling t ht]; rfl
  rw [hsplit, callsFail, List.takeWhile_append_of_pos hall, List.takeWhile_cons_of_pos rfl]
  simp

section
variable (hhooks : ∀ k ∈ hooks, k.step.spoils = true) (hsome : agenda hooks c.roster ≠ [])
  (hroom : callsFail (agenda hooks c.roster) = true → c.capacity < slotLimit)
include hhooks hsome hroom

/-- A step of the launcher. -/
theorem Stalled.launch (h : r.Stalled c hooks taken) (hstep : r.launch = some r') :
    ∃ taken', r'.Stalled c hooks taken' ∧ r'.toGo c hooks < r.toGo c hooks := by
  have hgate := h.gate
  have hreached := h.mustered.launched
  cases launches hstep with
  | refuses hl =>
    rw [hl] at hgate
    refine ⟨taken, ⟨h.mustered.refuses hl, h.untouched, hgate⟩, ?_⟩
    simp only [toGo, hl, List.length_cons]
    omega
  | @acts action steps name hl =>
    rw [hl] at hgate hreached
    obtain ⟨-, -, hagenda⟩ := hreached
    have haction : action = .fail := by
      have hmem : (name, HookStep.act action) ∈ agenda hooks c.roster := by simp [hagenda]
      exact of_decide_eq_true (hhooks _ (mem_agenda.1 hmem).2)
    subst haction
    have hcapacity := hroom (callsFail_of_split hagenda h.mustered.willing)
    obtain ⟨huntouched, hclosed⟩ := h.untouched.fails hgate hcapacity
    have hmustered := h.mustered.acts hl
    rw [Run.act, System.act_fst] at hmustered ⊢
    refine ⟨_, ⟨hmustered, ?_, hclosed⟩, ?_⟩
    · simpa [List.any_append] using huntouched
    · simp only [toGo, hl, List.length_cons, System.count]
      omega
  | @joins name log hl =>
    rw [hl] at hgate hreached
    obtain ⟨hname, -, -⟩ := hreached
    refine ⟨taken, ⟨h.mustered.joins log hl, (h.untouched.join name).noted log, ?_⟩, ?_⟩
    · change r.system.monitor.state.start = _
      rw [hgate]
      cases r.system.monitor.config.successor? name <;> rfl
    · have hcount := r.system.count_join (.atGate name) Agent.isAtGate
      rw [Agent.atGate_isAtGate, System.count, System.count, Bool.toNat_true] at hcount
      simp only [toGo, hl, h.mustered.config, h.mustered.staged, System.count, Config.onward_eq hname, Config.later]
      cases hnext : c.successor? name with
      | none =>
        simp only [Option.elim_none, List.length_cons, List.length_nil]
        omega
      | some next =>
        have hagenda := Config.agenda_onward (Config.successor_mem hnext) hooks
        simp only [Option.elim_some, hagenda, List.length_append, List.length_map, List.length_cons, List.length_nil]
        rw [Config.later]
        omega
  | @opens refusal log hl =>
    rw [hl] at hgate hreached
    have haway : (!refusal.isNone) = true ∨ (taken.any fun t => t.2 = .act .fail) = true := by
      cases refusal with
      | some => exact .inl rfl
      | none =>
        -- nobody was refused, so each step of the agenda was taken, and there is one
        rw [hreached.2] at hsome
        obtain ⟨⟨name, step⟩, ht⟩ := List.exists_mem_of_ne_nil _ hsome
        have hspoils := hhooks _ (mem_agenda.1 (hreached.2 ▸ ht)).2
        refine .inr (List.any_eq_true.2 ⟨_, ht, ?_⟩)
        cases step with
        | refuse => cases h.mustered.willing _ ht
        | act action =>
          rw [of_decide_eq_true hspoils]
          rfl
    refine ⟨taken, ⟨h.mustered.opens log hl, (h.untouched.opened haway).noted log, rfl⟩, ?_⟩
    simp only [toGo, hl, System.count]
    omega

theorem Stalled.step (h : r.Stalled c hooks taken) {who : Option Nat} (hstep : r.step who = some r') :
    ∃ taken', r'.Stalled c hooks taken' ∧ r'.toGo c hooks < r.toGo c hooks := by
  cases who with
  | none => exact h.launch hhooks hsome hroom hstep
  | some i =>
    obtain ⟨s, hs, rfl⟩ := Option.map_eq_some_iff.1 hstep
    exact ⟨taken, h.moves hs⟩

theorem Stalled.exec : ∀ (schedule : List (Option Nat)) {taken : List (AgentName × HookStep)} {r r' : Run},
    r.Stalled c hooks taken → r.exec schedule = some r' →
      ∃ taken', r'.Stalled c hooks taken' ∧ r'.toGo c hooks + schedule.length ≤ r.toGo c hooks
  | [], taken, r, r', h, hexec => by
    cases hexec
    exact ⟨taken, h, Nat.le_refl _⟩
  | who :: rest, taken, r, r', h, hexec => by
    obtain ⟨r₁, hstep, hrest⟩ := Option.bind_eq_some_iff.1 hexec
    obtain ⟨taken₁, h₁, hless⟩ := h.step hhooks hsome hroom hstep
    obtain ⟨taken₂, h₂, hle⟩ := Stalled.exec rest h₁ hrest
    refine ⟨taken₂, h₂, ?_⟩
    rw [List.length_cons]
    omega

end

/-! ## How such a run comes out -/

theorem waiting_of_result {result : Except RunFailure Report} (h : r.result? = some result) :
    ∃ refusal, r.launcher = .waiting refusal ∧ r.system.unfinished = 0 := by
  unfold result? at h
  simp only at h
  split at h
  · rename_i refusal hl
    split at h
    · cases h
    · rename_i hback
      exact ⟨refusal, hl, by simpa using hback⟩
  · cases h

/-- Until there is a result somebody can move. -/
theorem Stalled.exists_step (h : r.Stalled c hooks taken) (hresult : r.result? = none) :
    ∃ who, (r.step who).isSome = true := by
  cases hlaunch : r.launch with
  | some r' => exact ⟨none, by rw [Run.step, hlaunch]; rfl⟩
  | none =>
    obtain ⟨refusal, hl⟩ := waiting_of_launch hlaunch
    have hopen : r.system.monitor.state.start = true := h.gate.trans (by rw [hl]; rfl)
    have hleft : r.system.unfinished ≠ 0 := by
      intro hback
      unfold result? at hresult
      simp only [hl, hback, ne_eq, not_true_eq_false, if_false] at hresult
      split at hresult
      · cases hresult
      · split at hresult <;> cases hresult
    obtain ⟨i, hi⟩ := h.untouched.exists_step hopen hleft
    refine ⟨some i, ?_⟩
    rw [Run.step, Option.isSome_map]
    exact hi

/-- **The error is about the refusal, or else about a watcher without a report.** -/
theorem Stalled.result (h : r.Stalled c hooks taken) (hwatchers : 0 < c.watchers) {refusal : Option Refusal}
    (hl : r.launcher = .waiting refusal) (hback : r.system.unfinished = 0) :
    r.result? = some (.error (.error (.ofStart refusal))) := by
  have hagents := h.untouched.agents_eq hback
  have hturned : ∀ a ∈ r.system.agents.toList, ∃ name, .turnedAway name = a := by
    intro a ha
    rw [hagents] at ha
    obtain ⟨name, -, hname⟩ := List.mem_map.1 ha
    exact ⟨name, hname⟩
  have hnone : ∀ rest : List Agent, (∀ a ∈ rest, a ∈ r.system.agents.toList) → rest.any stoppedOnFault = false := by
    refine fun rest hrest => List.any_eq_false.2 fun a ha hstopped => ?_
    obtain ⟨name, rfl⟩ := hturned a (hrest a ha)
    rw [(Agent.turnedAway_back name).2.2.1] at hstopped
    cases hstopped
  cases refusal with
  | some refused =>
    unfold result?
    simp [hl, hback, unlessUnattended, hnone _ fun a ha => ha, RunError.ofStart]
  | none =>
    have hnames : r.system.names = c.roster := by
      have hreached := h.mustered.launched
      rw [hl] at hreached
      exact hreached.1
    have hwatcher : Agent.turnedAway (.watcher 0) ∈ r.system.agents.toList := by
      rw [hagents, hnames]
      exact List.mem_map_of_mem (by simpa [Config.roster] using hwatchers)
    obtain ⟨pre, a, rest, e, hsplit, -, hshort, hjudge⟩ :=
      judge_short ⟨_, mem_lookedAt_of_named hwatcher rfl, Option.some_ne_none RunError.unnotified⟩
    have hmem : ∀ x ∈ a :: rest, x ∈ r.system.agents.toList := fun x hx =>
      mem_lookedAt (by rw [hsplit]; exact List.mem_append_right _ hx)
    obtain ⟨name, rfl⟩ := hturned a (hmem a List.mem_cons_self)
    rw [(Agent.turnedAway_back name).2.2.2 e hshort] at hjudge
    unfold result?
    simp [hl, hback, hjudge, unlessUnattended, hnone rest fun x hx => hmem x (List.mem_cons_of_mem _ hx),
      RunError.ofStart]

/-- **A start that fails has no effect.**  Take hooks that only refuse agents and fail the run, at least one of them
before an agent of the roster, and room for the places of a failure if the run is failed before the first refusal.  At
every moment of every schedule the buffer, the counts, the phase, the events and the journal are those of a new run.  No
schedule has more steps than the hooks and the roster account for, and until there is a result somebody can move.  With
the result the agents that were brought in before the first refusal are back with nothing done, the places are those of
a new run, with one more on each side if the run was failed, and the error is about the first refusal, or else that a
watcher came back without a report. -/
theorem false_start_has_no_effect (hhooks : ∀ k ∈ hooks, k.step.spoils = true) (hsome : ∃ k ∈ hooks, k.before ∈ c.roster)
    (hroom : callsFail (agenda hooks c.roster) = true → c.capacity < slotLimit) (hstart : Run.start c hooks = .ok r₀)
    (schedule : List (Option Nat)) (hexec : r₀.exec schedule = some r) :
    let m := r.system.monitor
    let new := Monitor.fresh c
    let steps := agenda hooks c.roster
    (m.state.buffer = new.state.buffer ∧ m.state.produced = new.state.produced ∧ m.state.consumed = new.state.consumed ∧
      m.state.phase = new.state.phase ∧ m.state.events = new.state.events ∧ m.state.journal = new.state.journal) ∧
    schedule.length ≤ steps.length + 2 * c.roster.length + 1 ∧
    (r.result? = none → ∃ who, (r.step who).isSome = true) ∧
    (∀ result, r.result? = some result →
      r.system.agents.toList = (c.broughtIn (firstRefusal? steps)).map .turnedAway ∧
      (∀ side, (m.slots.get side).value = (new.slots.get side).value + (callsFail steps).toNat) ∧
      ∃ e, result = .error (.error e) ∧ e.chain = (firstRefusal? steps).elim ["watcher exited without completion"]
        fun refused => ["failed to spawn " ++ refused.name.text, refused.cause]) := by
  intro m new steps
  have hne : agenda hooks c.roster ≠ [] := by
    obtain ⟨k, hk, hbefore⟩ := hsome
    exact List.ne_nil_of_mem (mem_agenda.2 ⟨hbefore, hk⟩)
  obtain ⟨hstalled, hlength⟩ := Stalled.start hstart
  obtain ⟨taken, h, hle⟩ := Stalled.exec hhooks hne hroom schedule hstalled hexec
  have hstate := h.untouched.state
  refine ⟨?_, ?_, h.exists_step, fun result hresult => ?_⟩
  · simp only [m]
    rw [hstate]
    exact ⟨rfl, rfl, rfl, rfl, rfl, rfl⟩
  · simp only [steps]
    omega
  · obtain ⟨refusal, hl, hback⟩ := waiting_of_result hresult
    have hgathered := h.mustered.launched
    rw [hl] at hgathered
    obtain ⟨hfirst, hnames, hcalls⟩ := hgathered.outcome h.mustered.willing
    have hwatchers := (Config.validate_eq_ok.1 (valid_of_start hstart)).2.2.2.2.1
    rw [h.result hwatchers hl hback, Option.some.injEq] at hresult
    refine ⟨?_, fun side => ?_, _, hresult.symm, ?_⟩
    · rw [h.untouched.agents_eq hback, hnames, hfirst]
    · rw [hcalls]
      exact h.untouched.slots side
    · rw [hfirst]
      cases refusal <;> rfl

/-- The run is failed before the second watcher comes, then the first producer is refused.  The other refusal is never
reached, and the agents leave in an order of their own. -/
theorem false_start_has_no_effect_failed_and_refused :
    let c : Config := { capacity := 2, producers := 2, itemsPerProducer := 1, watchers := 2 }
    let hooks : List Hook := [⟨.producer 1, .refuse "too late"⟩, ⟨.watcher 1, .act .fail⟩,
      ⟨.producer 0, .refuse "no more producers"⟩]
    let schedule := List.replicate 6 none ++ [2, 0, 1].map some
    (∀ k ∈ hooks, k.step.spoils = true) ∧ (∃ k ∈ hooks, k.before ∈ c.roster) ∧
      callsFail (agenda hooks c.roster) = true ∧ c.capacity < slotLimit ∧
      ∃ r₀ r e, Run.start c hooks = .ok r₀ ∧ r₀.exec schedule = some r ∧
        r.system.monitor.state.buffer = (Monitor.fresh c).state.buffer ∧
        r.system.agents.toList =
          [.consumer (.finished 0), .watcher 0 (.finished none), .watcher 1 (.finished none)] ∧
        r.system.monitor.slots.free.value = 3 ∧ r.system.monitor.slots.filled.value = 1 ∧
        r.result? = some (.error (.error e)) ∧ e.chain = ["failed to spawn producer-0", "no more producers"] := by
  intro c hooks schedule
  have hhooks : ∀ k ∈ hooks, k.step.spoils = true := by decide
  have hsome : ∃ k ∈ hooks, k.before ∈ c.roster := by decide
  have hcapacity : c.capacity < slotLimit := by decide
  obtain ⟨r₀, r, hstart, hexec, hseen⟩ := exists_exec_of (Run.start c hooks) 0 schedule (fun r => r.result?.isSome)
    (b := true) (by decide +kernel)
  rw [withCalls_zero] at hexec
  obtain ⟨result, hresult⟩ := Option.isSome_iff_exists.1 hseen
  obtain ⟨⟨hbuffer, -⟩, -, -, hend⟩ :=
    false_start_has_no_effect hhooks hsome (fun _ => hcapacity) hstart schedule hexec
  obtain ⟨hagents, hslots, e, rfl, hchain⟩ := hend result hresult
  exact ⟨hhooks, hsome, by decide, hcapacity, r₀, r, e, hstart, hexec, hbuffer, hagents, hslots .free, hslots .filled,
    hresult, hchain⟩

end Run
end Handover
