import Handover.Proofs.Muster
import Handover.Proofs.Outcome
/-!
# Blame — the error of a run in which agents stop on a fault

When all agents are back they are looked at in their order: the producers, the consumer, the watchers.  The first one
that fell short gives the run its error (`Run.Blames`), whatever the hooks did and whatever the schedule was.  That
error is returned if nobody else stopped on a fault.  Nobody looks at the agents after the first one, so a second one
that stopped takes the run down.
-/
namespace Handover

/-- This agent is looked at before that one. -/
def AgentName.Precedes : AgentName → AgentName → Prop
  | producer i, producer j => i < j
  | producer _, consumer | producer _, watcher _ | consumer, watcher _ => True
  | watcher i, watcher j => i < j
  | consumer, consumer | consumer, producer _ | watcher _, producer _ | watcher _, consumer => False

theorem AgentName.Precedes.asymm {x y : AgentName} (h : x.Precedes y) : ¬ y.Precedes x := by
  intro h'
  cases x <;> cases y <;> simp only [Precedes] at h h'
  all_goals omega

namespace Config

/-- The agents in the order in which they are looked at. -/
def rollcall (c : Config) : List AgentName :=
  (List.range c.producers).map .producer ++ [.consumer] ++ (List.range c.watchers).map .watcher

theorem rollcall_sorted (c : Config) : c.rollcall.Pairwise AgentName.Precedes := by
  have hproducers : ((List.range c.producers).map AgentName.producer).Pairwise AgentName.Precedes :=
    List.pairwise_map.2 List.pairwise_lt_range
  have hwatchers : ((List.range c.watchers).map AgentName.watcher).Pairwise AgentName.Precedes :=
    List.pairwise_map.2 List.pairwise_lt_range
  refine List.pairwise_append.2 ⟨List.pairwise_append.2 ⟨hproducers, List.pairwise_singleton _ _, ?_⟩, hwatchers, ?_⟩
  · intro x hx y hy
    obtain ⟨i, -, rfl⟩ := List.mem_map.1 hx
    rw [List.mem_singleton.1 hy]
    trivial
  · intro x hx y hy
    obtain ⟨j, -, rfl⟩ := List.mem_map.1 hy
    rw [List.mem_append, List.mem_singleton] at hx
    rcases hx with hx | rfl
    · obtain ⟨i, -, rfl⟩ := List.mem_map.1 hx
      trivial
    · trivial

end Config

/-- What the run's error is if this agent is the first one that did not come back well. -/
def Agent.shortfall? (a : Agent) : Option RunError :=
  match a.outcome?, a.name? with
  | some (.fault _), some name => some (.faulted name)
  | some (.report none), _ => some .unnotified
  | _, _ => none

namespace Run

/-- **The run's error is about this agent**: it fell short, and nobody did who is looked at before it. -/
structure Blames (agents : List Agent) (a : Agent) (e : RunError) : Prop where
  there : a ∈ agents
  short : a.shortfall? = some e
  first : ∀ b ∈ agents, ∀ x ∈ b.name?, ∀ y ∈ a.name?, x.Precedes y → b.shortfall? = none

theorem shortfall_of_stopped {a : Agent} (h : stoppedOnFault a = true) (hname : a.name?.isSome = true) :
    a.shortfall? ≠ none := by
  obtain ⟨name, hname⟩ := Option.isSome_iff_exists.1 hname
  unfold stoppedOnFault at h
  cases ho : a.outcome? with
  | none => rw [ho] at h; cases h
  | some o =>
    rw [ho] at h
    cases o with
    | fault f => simp [Agent.shortfall?, ho, hname]
    | count | report | verdict | found | broke => cases h

/-- **The first agent that fell short is judged**, and those after it are not. -/
theorem judge_short : ∀ {l : List Agent}, (∃ a ∈ l, a.shortfall? ≠ none) → ∃ pre a rest e,
    l = pre ++ a :: rest ∧ (∀ b ∈ pre, b.shortfall? = none) ∧ a.shortfall? = some e ∧ judge l = .error (e, rest)
  | [], h => by
    obtain ⟨a, ha, -⟩ := h
    cases ha
  | a :: l, h => by
    cases hshort : a.shortfall? with
    | some e =>
      refine ⟨[], a, l, e, rfl, fun b hb => absurd hb List.not_mem_nil, hshort, ?_⟩
      unfold Agent.shortfall? at hshort
      unfold judge
      split at hshort
      · rename_i ho hn
        cases hshort
        rw [ho, hn]
      · rename_i ho
        cases hshort
        rw [ho]
      · cases hshort
    | none =>
      have hrest : ∃ b ∈ l, b.shortfall? ≠ none := by
        obtain ⟨b, hb, hne⟩ := h
        rcases List.mem_cons.1 hb with rfl | hb
        · exact absurd hshort hne
        · exact ⟨b, hb, hne⟩
      obtain ⟨pre, x, rest, e, rfl, hpre, hx, hjudge⟩ := judge_short hrest
      refine ⟨a :: pre, x, rest, e, rfl, ?_, hx, ?_⟩
      · intro b hb
        rcases List.mem_cons.1 hb with rfl | hb
        · exact hshort
        · exact hpre b hb
      · unfold Agent.shortfall? at hshort
        unfold judge
        split
        · rename_i ho hn
          rw [ho, hn] at hshort
          cases hshort
        · rename_i ho
          rw [ho] at hshort
          cases hshort
        · rw [hjudge]
          rfl
        · exact hjudge

theorem mem_lookedAt_of_named {l : List Agent} {a : Agent} (h : a ∈ l) (hname : a.name?.isSome = true) :
    a ∈ lookedAt l := by
  simp only [lookedAt, List.mem_append, List.mem_filter]
  cases a with
  | producer => exact .inl (.inl ⟨h, rfl⟩)
  | consumer => exact .inl (.inr ⟨h, rfl⟩)
  | watcher => exact .inr ⟨h, rfl⟩
  | starter | finisher | breaker => cases hname

theorem names_filter (p : Agent → Bool) (q : AgentName → Bool) (hp : ∀ a, p a = a.name?.any q) (l : List Agent) :
    (l.filter p).filterMap Agent.name? = (l.filterMap Agent.name?).filter q := by
  rw [List.filterMap_filter, List.filter_filterMap]
  congr 1
  funext a
  rw [hp]
  cases a.name? <;> simp [Option.filter]

/-- **The agents of the roster are looked at in the order of the roll call.** -/
theorem names_lookedAt {c : Config} {l : List Agent} (h : l.filterMap Agent.name? = c.roster) :
    (lookedAt l).filterMap Agent.name? = c.rollcall := by
  rw [lookedAt, List.filterMap_append, List.filterMap_append,
    names_filter _ AgentName.isProducer (fun a => by cases a <;> rfl),
    names_filter _ (decide <| · = .consumer) (fun a => by cases a <;> rfl),
    names_filter _ AgentName.isWatcher (fun a => by cases a <;> rfl), h]
  simp [Config.roster, Config.rollcall, List.filter_map, Function.comp_def, AgentName.isProducer, AgentName.isWatcher]

/-- Of agents in the order of the roll call, each is looked at before those behind it. -/
theorem precedes_of_split {l pre rest : List Agent} {a b : Agent} {x y : AgentName}
    (hsorted : (l.filterMap Agent.name?).Pairwise AgentName.Precedes) (hsplit : l = pre ++ a :: rest) (hb : b ∈ rest)
    (hx : a.name? = some x) (hy : b.name? = some y) : x.Precedes y := by
  rw [hsplit, List.pairwise_filterMap, List.pairwise_append, List.pairwise_cons] at hsorted
  exact hsorted.2.1.1 b hb x hx y hy

variable {c : Config} {hooks : List Hook} {taken : List (AgentName × HookStep)} {r r₀ : Run}

/-- Without a refusal all agents of the roster are there when the launcher waits. -/
theorem Mustered.all_there (h : r.Mustered c hooks taken) (hhooks : ∀ k ∈ hooks, k.step.isRefusal = false)
    (hwaits : r.launch = none) : r.launcher = .waiting none ∧ r.system.names = c.roster := by
  obtain ⟨refusal, hl⟩ := waiting_of_launch hwaits
  have hreached := h.launched
  rw [hl] at hreached
  cases refusal with
  | none => exact ⟨hl, hreached.1⟩
  | some refusal =>
    obtain ⟨-, rest, hagenda⟩ := hreached
    have hmem : (refusal.name, HookStep.refuse refusal.cause) ∈ agenda hooks c.roster := by
      rw [hagenda]
      exact List.mem_append_right _ List.mem_cons_self
    cases hhooks _ (mem_agenda.1 hmem).2

/-- **A run in which agents stop on a fault has the error of the first one that fell short, unless another one stopped
as well.**  Take any hooks that refuse nobody, whatever they do to the monitor, and any schedule that ends with all
agents back, some of them on a fault.  The agents that fell short are those that stopped on a fault and the watchers
without a report.  If the first of them, in the order in which agents are looked at, is the only one that stopped, the
run returns the error about it; otherwise the run stops on a fault itself. -/
theorem error_of_first_shortfall (hhooks : ∀ k ∈ hooks, k.step.isRefusal = false) (hstart : Run.start c hooks = .ok r₀)
    (schedule : List (Option Nat)) (hexec : r₀.exec schedule = some r) (hwaits : r.launch = none)
    (hback : r.system.unfinished = 0) (hfault : ∃ a ∈ r.system.agents.toList, stoppedOnFault a = true) :
    ∃ a e, Blames r.system.agents.toList a e ∧
      ((∀ b ∈ r.system.agents.toList, stoppedOnFault b = true → b = a) → r.result? = some (.error (.error e))) ∧
      ((∃ b ∈ r.system.agents.toList, stoppedOnFault b = true ∧ b ≠ a) →
        r.result? = some (.error (.fault .unattended))) := by
  obtain ⟨taken, h⟩ := Mustered.exec schedule (.start hstart) hexec
  obtain ⟨hl, hnames⟩ := h.all_there hhooks hwaits
  have hlooked (b : Agent) (hb : b ∈ r.system.agents.toList) := mem_lookedAt_of_named hb (h.named b hb)
  have hshort (b : Agent) (hb : b ∈ r.system.agents.toList) (hstopped : stoppedOnFault b = true) :=
    shortfall_of_stopped hstopped (h.named b hb)
  obtain ⟨b, hb, hstopped⟩ := hfault
  obtain ⟨pre, a, rest, e, hsplit, hpre, ha, hjudge⟩ := judge_short ⟨b, hlooked b hb, hshort b hb hstopped⟩
  have hresult : r.result? = some (.error (unlessUnattended e rest)) := by
    unfold result?
    rw [hl]
    simp [hback, hjudge]
  have hthere : a ∈ r.system.agents.toList := mem_lookedAt (by rw [hsplit]; simp)
  obtain ⟨y, hy⟩ := Option.isSome_iff_exists.1 (h.named a hthere)
  have hsorted : ((lookedAt r.system.agents.toList).filterMap Agent.name?).Pairwise AgentName.Precedes := by
    rw [names_lookedAt hnames]
    exact c.rollcall_sorted
  have hbehind {b : Agent} {x : AgentName} (hb : b ∈ rest) (hx : b.name? = some x) : ¬ x.Precedes y :=
    (precedes_of_split hsorted hsplit hb hy hx).asymm
  refine ⟨a, e, ⟨hthere, ha, ?_⟩, fun hsole => ?_, ?_⟩
  · intro b hb x hx y' hy' hbefore
    cases hy.symm.trans hy'
    have hmem := hlooked b hb
    rw [hsplit, List.mem_append, List.mem_cons] at hmem
    rcases hmem with hmem | rfl | hmem
    · exact hpre b hmem
    · cases hy.symm.trans hx
      exact absurd hbefore hbefore.asymm
    · exact absurd hbefore (hbehind hmem hx)
  · have hnone : rest.any stoppedOnFault = false := by
      refine List.any_eq_false.2 fun b hb hstopped => ?_
      have hmem : b ∈ r.system.agents.toList := mem_lookedAt (by rw [hsplit]; simp [hb])
      cases hsole b hmem hstopped
      have hself := precedes_of_split hsorted hsplit hb hy hy
      exact hself.asymm hself
    rw [hresult, unlessUnattended, hnone]
    rfl
  · rintro ⟨b, hb, hstopped, hother⟩
    have hmem := hlooked b hb
    rw [hsplit, List.mem_append, List.mem_cons] at hmem
    rcases hmem with hmem | rfl | hmem
    · exact absurd (hpre b hmem) (hshort b hb hstopped)
    · exact absurd rfl hother
    · rw [hresult, unlessUnattended, List.any_eq_true.2 ⟨b, hmem, hstopped⟩]
      rfl

/-- A full buffer with a free place counted.  The second producer stops on it, the first one finds the run failed, and
the watcher, which is looked at last, has no report either. -/
theorem error_of_first_shortfall_second_producer :
    let c : Config := { capacity := 1, producers := 2, itemsPerProducer := 1, watchers := 1 }
    let hooks : List Hook := [⟨.producer 0, .act (.insert 0 0)⟩]
    let schedule := List.replicate 6 none ++ [2, 1, 0, 3, 3, 3, 3, 3, 3, 3, 2, 2, 2, 0, 0, 0, 1].map some
    (∀ k ∈ hooks, k.step.isRefusal = false) ∧ ∃ r₀ r, Run.start c hooks = .ok r₀ ∧ r₀.exec schedule = some r ∧
      r.launch = none ∧ r.system.unfinished = 0 ∧
      r.system.agents.toList = [.consumer (.finished 0), .watcher 0 (.finished none), .producer 0 (.finished 0),
        .producer 1 (.faulted .bufferFull)] ∧
      Blames r.system.agents.toList (.producer 1 (.faulted .bufferFull)) (.faulted (.producer 1)) ∧
      r.result? = some (.error (.error (.faulted (.producer 1)))) := by
  intro c hooks schedule
  have hhooks : ∀ k ∈ hooks, k.step.isRefusal = false := by decide
  obtain ⟨r₀, r, hstart, hexec, hseen⟩ := exists_exec_of (Run.start c hooks) 0 schedule
    (fun r => (r.launch.isNone, r.system.unfinished, r.system.agents.toList))
    (b := (true, 0, [.consumer (.finished 0), .watcher 0 (.finished none), .producer 0 (.finished 0),
      .producer 1 (.faulted .bufferFull)])) (by decide +kernel)
  obtain ⟨hwaits, hback, hagents⟩ := by simpa only [Prod.mk.injEq] using hseen
  rw [withCalls_zero] at hexec
  rw [Option.isNone_iff_eq_none] at hwaits
  obtain ⟨a, e, hblames, hsole, -⟩ := error_of_first_shortfall hhooks hstart schedule hexec hwaits hback
    ⟨.producer 1 (.faulted .bufferFull), by rw [hagents]; simp, rfl⟩
  rw [hagents] at hblames hsole
  have hstopped : Agent.producer 1 (.faulted .bufferFull) ∈ [Agent.consumer (.finished 0), .watcher 0 (.finished none),
      .producer 0 (.finished 0), .producer 1 (.faulted .bufferFull)] := by simp
  have ha : a = .producer 1 (.faulted .bufferFull) := by
    have hshort := hblames.short
    rcases (by simpa using hblames.there : _ ∨ _ ∨ _ ∨ _) with rfl | rfl | rfl | rfl
    · cases hshort
    · cases hblames.first _ hstopped _ rfl _ rfl trivial
    · cases hshort
    · rfl
  subst ha
  cases hblames.short
  refine ⟨hhooks, r₀, r, hstart, hexec, hwaits, hback, hagents, by rw [hagents]; exact hblames, hsole ?_⟩
  decide

/-- Why the run has no report, once it came out without one. -/
def failure? (r : Run) : Option RunFailure :=
  match r.result? with
  | some (.error f) => some f
  | _ => none

theorem result_of_failure {f : RunFailure} (h : r.failure? = some f) : r.result? = some (.error f) := by
  unfold failure? at h
  split at h
  · rename_i hr
    cases h
    exact hr
  · cases h

/-- **Two producers that stop on a fault take the run down.**  The buffer is full with both places counted as free; the
second producer is at the buffer before the first one has marked the run as failed. -/
theorem two_faults_take_the_run_down :
    let c : Config := { capacity := 2, producers := 2, itemsPerProducer := 1, watchers := 1 }
    let hooks : List Hook := [⟨.consumer, .act (.insert 0 0)⟩, ⟨.consumer, .act (.insert 0 1)⟩]
    let schedule := List.replicate 7 none ++ [2, 2, 3, 3, 2, 3, 2, 2, 2, 2, 3, 3, 0, 1].map some
    (∀ k ∈ hooks, k.step.isRefusal = false) ∧ ∃ r₀ r, Run.start c hooks = .ok r₀ ∧ r₀.exec schedule = some r ∧
      r.launch = none ∧ r.system.unfinished = 0 ∧
      r.faults = [(.producer 0, .bufferFull), (.producer 1, .bufferFull)] ∧
      r.result? = some (.error (.fault .unattended)) := by
  intro c hooks schedule
  obtain ⟨r₀, r, hstart, hexec, hseen⟩ := exists_exec_of (Run.start c hooks) 0 schedule
    (fun r => (r.launch.isNone, r.system.unfinished, r.faults, r.failure?))
    (b := (true, 0, [(.producer 0, .bufferFull), (.producer 1, .bufferFull)], some (.fault .unattended)))
    (by decide +kernel)
  obtain ⟨hwaits, hback, hfaults, hfailure⟩ := by simpa only [Prod.mk.injEq] using hseen
  rw [withCalls_zero] at hexec
  rw [Option.isNone_iff_eq_none] at hwaits
  exact ⟨by decide, r₀, r, hstart, hexec, hwaits, hback, hfaults, result_of_failure hfailure⟩

end Run
end Handover
