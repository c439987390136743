import Handover.Proofs.Frozen
import Handover.Proofs.Muster
import Handover.Proofs.Release
/-!
# Headroom — the places that a failure adds need room

A failure adds a place to each counter, on top of those that the buffer has, and a counter can show no more than
`slotLimit`.  Counted or claimed, the places of a side are at most one more than the buffer's (`System.Staked`).  So
with any capacity below the limit the call that fails the run adds both its places, and whoever passes a permit on or
gives it back finds room for it.  With the largest capacity that a configuration may have this is not so: the free
places of a new run fill their counter, the call stops at its first place, and the consumer that waits for the second
one waits for good.
-/
namespace Handover

namespace Agent

theorem of_atGate (quota : Nat) (name : AgentName) :
    (atGate name).isCrashed = false ∧ (atGate name).InQuota quota ∧ (atGate name).isLost = false := by
  cases name <;> exact ⟨rfl, trivial, rfl⟩

/-- **A call that finds room for its places comes to its end.** -/
theorem isLost_of_step {m m' : Monitor} {a a' : Agent}
    (hroom : ∀ side, 0 < a.claim side → (m.slots.get side).value < slotLimit) (h : a.step m = some (a', m')) :
    a'.isLost = false := by
  cases step_becomes h with
  | producer | consumer | watcher | starter | finisher => rfl
  | @breaker place =>
    obtain ⟨place'', hp, heq⟩ := exists_place (f := Agent.breaker) h
    rw [heq]
    cases place with
    | calling stage =>
      obtain ⟨progress, m₁, hstep, -⟩ := stage.step_stakes fun side hside => hroom side
        (Nat.lt_of_lt_of_le hside (Nat.le_add_left _ _))
      rw [BreakerPlace.step, hstep] at hp
      cases progress <;> cases hp <;> rfl
    | finished | faulted => cases hp

end Agent

namespace System

variable {c : Config} {s s' : System}

theorem Staked.noted (h : s.Staked c) (log : List Note) :
    ({ s with monitor := { s.monitor with log := log } } : System).Staked c :=
  h.withGate s.monitor.state.aborted s.monitor.state.start log

theorem Staked.join (h : s.Staked c) (name : AgentName) : (s.join (.atGate name)).Staked c := by
  obtain ⟨hupright, hquota, -⟩ := Agent.of_atGate c.itemsPerProducer name
  refine ⟨h.config, ?_, fun side => ?_, h.done, h.standing, forall_join h.upright hupright,
    forall_join h.quota hquota⟩
  · rw [stake_join, stake_join]
    exact h.total
  · rw [stake_join]
    exact h.share side

/-- **A failure finds room.**  Neither counter is past its limit; a call that fails the run adds a place to each of
them, unless the run had failed before; whoever is bound to add a place can add it; no call was lost and nobody took the
system down; and once the run has failed behind the open gate somebody can move until all are back. -/
structure HasRoom (s : System) : Prop where
  within : ∀ side, (s.monitor.slots.get side).value ≤ slotLimit
  call : ∃ m', Act.fail s.monitor = .ok (!s.monitor.state.failed) m' ∧ ∀ side,
    (m'.slots.get side).value = (s.monitor.slots.get side).value + (!s.monitor.state.failed).toNat ∧
      (m'.slots.get side).value ≤ slotLimit
  posts : ∀ a ∈ s.agents.toList, ∀ side, 0 < a.claim side → (s.monitor.slots.get side).value < slotLimit
  kept : ∀ a ∈ s.agents.toList, a.isLost = false
  standing : s.halted = false
  released : s.monitor.state.start = true → s.monitor.state.failed = true → s.unfinished ≠ 0 →
    ∃ i, (s.step i).isSome = true

theorem Staked.value_le (h : s.Staked c) (side : Side) :
    (s.monitor.slots.get side).value ≤ c.capacity + s.monitor.state.failed.toNat := by
  have htotal := h.total
  have hfree := h.share .free
  have hfilled := h.share .filled
  simp only [stake] at htotal hfree hfilled
  cases side <;> omega

theorem Staked.call (h : s.Staked c) (hc : c.capacity < slotLimit) :
    ∃ m', Act.fail s.monitor = .ok (!s.monitor.state.failed) m' ∧ ∀ side,
      (m'.slots.get side).value = (s.monitor.slots.get side).value + (!s.monitor.state.failed).toNat ∧
        (m'.slots.get side).value ≤ slotLimit := by
  have hle := h.value_le
  cases hf : s.monitor.state.failed with
  | false =>
    simp only [hf, Bool.toNat_false] at hle
    obtain ⟨slots, log, hcall, hvalue⟩ := Act.fail_first hf fun side => Nat.lt_of_le_of_lt (hle side) hc
    refine ⟨_, hcall, fun side => ⟨hvalue side, ?_⟩⟩
    rw [hvalue]
    exact Nat.succ_le_of_lt (Nat.lt_of_le_of_lt (hle side) hc)
  | true =>
    simp only [hf, Bool.toNat_true] at hle
    exact ⟨s.monitor, Act.fail_again hf, fun side => ⟨rfl, (hle side).trans hc⟩⟩

theorem Staked.hasRoom (h : s.Staked c) (hc : c.capacity < slotLimit) (hkept : ∀ a ∈ s.agents.toList, a.isLost = false) :
    s.HasRoom := by
  refine ⟨fun side => ?_, h.call hc, fun a ha => h.room hc ha, hkept, h.standing, fun hopen hfailed hleft => ?_⟩
  · have hle := h.value_le side
    have hone := Bool.toNat_le s.monitor.state.failed
    omega
  · exact Broken.exists_step ⟨h, hopen, hfailed⟩ hleft

end System

namespace Run

variable {c : Config} {r r' : Run}

/-- **What holds all through a run that has room for a failure**: its places are all counted or claimed, and no call was
lost. -/
structure AllStaked (c : Config) (r : Run) : Prop where
  hooks : r.hooks = []
  plain : ∀ steps name, r.launcher = .preparing steps name → steps = []
  staked : r.system.Staked c
  kept : ∀ a ∈ r.system.agents.toList, a.isLost = false

theorem AllStaked.start (h : Run.start c [] = .ok r) (calls : Nat) : (r.withCalls calls).AllStaked c := by
  have hvalid := valid_of_start h
  have hnew : Monitor.new c = .ok (.fresh c) := by
    unfold Monitor.new
    rw [hvalid]
    rfl
  rw [start_ok hvalid, Except.ok.injEq] at h
  subst h
  have hcalls : ∀ a ∈ (#[] ++ Array.replicate calls (Agent.breaker (.calling .mark))).toList,
      a = .breaker (.calling .mark) := by simp
  have hplaces : (Slots.ofCapacity c.capacity).free.value + (Slots.ofCapacity c.capacity).filled.value = c.capacity := rfl
  have hstaked := System.staked_of_new hnew hplaces fun a ha => by
    rw [hcalls a ha]
    rfl
  refine ⟨rfl, fun steps name hl => ?_, hstaked.noted _, fun a ha => ?_⟩
  · cases hl
    rfl
  · rw [hcalls a ha]
    rfl

theorem AllStaked.launch (hr : r.AllStaked c) (h : r.launch = some r') : r'.AllStaked c := by
  cases launches h with
  | refuses hl | acts hl => cases hr.plain _ _ hl
  | @joins name log hl =>
    refine ⟨hr.hooks, fun steps next hnext => ?_, (hr.staked.join name).noted log,
      System.forall_join hr.kept (Agent.of_atGate 0 name).2.2⟩
    simp only [hr.hooks] at hnext
    cases hs : r.system.monitor.config.successor? name with
    | none => rw [hs] at hnext; cases hnext
    | some next =>
      rw [hs] at hnext
      cases hnext
      rfl
  | @opens refusal log hl => exact ⟨hr.hooks, nofun, hr.staked.withGate (!refusal.isNone) true log, hr.kept⟩

theorem AllStaked.step (hr : r.AllStaked c) (hc : c.capacity < slotLimit) {who : Option Nat} (h : r.step who = some r') :
    r'.AllStaked c := by
  cases who with
  | none => exact hr.launch h
  | some i =>
    obtain ⟨s, hs, rfl⟩ := Option.map_eq_some_iff.1 h
    obtain ⟨-, a, a', hreplaces, ha, -⟩ := System.step_eq_some hs
    have hlost := Agent.isLost_of_step (hr.staked.room hc hreplaces.mem) ha
    exact ⟨hr.hooks, hr.plain, hr.staked.step hc hs, hreplaces.forall_after hr.kept hlost⟩

theorem AllStaked.exec (hc : c.capacity < slotLimit) : ∀ (schedule : List (Option Nat)) {r r' : Run}, r.AllStaked c →
    r.exec schedule = some r' → r'.AllStaked c
  | [], r, r', hr, h => by
    cases h
    exact hr
  | who :: rest, r, r', hr, h => by
    obtain ⟨r₁, hstep, hrest⟩ := Option.bind_eq_some_iff.1 h
    exact AllStaked.exec hc rest (hr.step hc hstep) hrest

/-- **A failure finds room at every moment exactly if the capacity is below the limit of a counter.**  Take a run of any
admitted size, with any calls from outside that may fail it, under any schedule. -/
theorem room_for_failure_iff {r₀ : Run} (hstart : Run.start c [] = .ok r₀) :
    (∀ calls schedule r, (r₀.withCalls calls).exec schedule = some r → r.system.HasRoom) ↔ c.capacity < slotLimit := by
  constructor
  · intro hroom
    by_contra hfull
    -- already before the first step, the free places fill their counter
    obtain ⟨m', hcall, -⟩ := (hroom 0 [] _ rfl).call
    have hvalid := valid_of_start hstart
    rw [start_ok hvalid, Except.ok.injEq] at hstart
    subst hstart
    obtain ⟨m'', hfault⟩ := Act.fail_of_full (m := (Monitor.fresh c).say (.starting c)) rfl hfull
    cases hcall.symm.trans hfault
  · intro hc calls schedule r hexec
    have hr := AllStaked.exec hc schedule (.start hstart calls) hexec
    exact hr.staked.hasRoom hc hr.kept

/-- With one place less than the limit a producer holds a permit when a call fails the run; it is yet to give its permit
back, the call has added both its places, and the consumer has taken one of them. -/
theorem room_for_failure_iff_amid_failure :
    let c : Config := { capacity := 2147483646, producers := 1, itemsPerProducer := 1, watchers := 1 }
    let schedule := List.replicate 4 none ++ [3, 3, 1, 0, 0, 0, 1, 3].map some
    ∃ r₀ r, Run.start c [] = .ok r₀ ∧ (r₀.withCalls 1).exec schedule = some r ∧
      (r.system.agents = #[.breaker (.finished true), .consumer .holding, .watcher 0 .gate, .producer 0 (.stopping 0)] ∧
        r.system.monitor.slots.free.value = 2147483646 ∧ r.system.monitor.slots.filled.value = 0) ∧
      r.system.HasRoom := by
  intro c schedule
  obtain ⟨r₀, r, hstart, hexec, hseen⟩ := exists_exec c 1 schedule
    (fun r => (r.system.agents, r.system.monitor.slots.free.value, r.system.monitor.slots.filled.value))
    (b := (#[.breaker (.finished true), .consumer .holding, .watcher 0 .gate, .producer 0 (.stopping 0)],
      2147483646, 0)) (by decide +kernel)
  obtain ⟨hagents, hfree, hfilled⟩ := by simpa only [Prod.mk.injEq] using hseen
  exact ⟨r₀, r, hstart, hexec, ⟨hagents, hfree, hfilled⟩,
    (room_for_failure_iff hstart).2 (by decide) 1 schedule r hexec⟩

/-- **With the largest capacity a failure takes the call down and leaves the consumer waiting.**  The call marks the run
as failed and stops at its first place, so it never comes to the second one. -/
theorem largest_capacity_leaves_consumer_waiting :
    let c : Config := { capacity := 2147483647, producers := 1, itemsPerProducer := 1, watchers := 1 }
    let schedule := List.replicate 4 none ++ [1, 0, 0, 2, 3].map some
    c.validate = .ok () ∧ ∃ r₀ r, Run.start c [] = .ok r₀ ∧ (r₀.withCalls 1).exec schedule = some r ∧
      r.system.agents = #[.breaker (.faulted .slotOverflow), .consumer .ready, .watcher 0 (.finished none),
        .producer 0 (.finished 0)] ∧
      r.system.monitor.slots.free.value = 2147483647 ∧ r.system.monitor.slots.filled.value = 0 ∧
      ∀ who, r.step who = none := by
  intro c schedule
  obtain ⟨r₀, r, hstart, hexec, hseen⟩ := exists_exec c 1 schedule
    (fun r => (r.system.agents, r.system.monitor.slots.free.value, r.system.monitor.slots.filled.value,
      r.launch.isNone, (List.range r.system.agents.size).all fun i => (r.system.step i).isNone))
    (b := (#[.breaker (.faulted .slotOverflow), .consumer .ready, .watcher 0 (.finished none),
      .producer 0 (.finished 0)], 2147483647, 0, true, true)) (by decide +kernel)
  obtain ⟨hagents, hfree, hfilled, hlaunch, hsteps⟩ := by simpa only [Prod.mk.injEq] using hseen
  exact ⟨by decide, r₀, r, hstart, hexec, hagents, hfree, hfilled, stuck_of_all hlaunch hsteps⟩

end Run
end Handover
