import Handover.Proofs.Budget
import Handover.Proofs.Standing
/-!
# Stakes — places that are counted or claimed

An agent claims a place of a side if it is bound to add one to that side's counter: because it holds a permit of it,
because it has moved an item and has yet to pass the permit on, or because it fails the run and has yet to add its place
(`Agent.claim`).  Counted or claimed, the places of both sides are as many as the buffer has cells, and one more on each
side once the run is marked as failed (`System.Staked`).  Any agents may take part, and nothing is asked of what they
find in the buffer: an agent that stops on a fault goes on claiming what it has to give back.  So a counter that
somebody claims a place of is below its limit, and no step finds a counter full.
-/
namespace Handover

/-- The places that a call that fails the run has yet to add to a side. -/
def FailStage.owes : Side → FailStage → Nat
  | _, mark => 0
  | _, free => 1
  | .free, filled => 0
  | .filled, filled => 1

def FailProgress.owes (side : Side) : FailProgress → Nat
  | .next stage => stage.owes side
  | .over _ => 0

namespace Agent

def owes (side : Side) : Agent → Nat
  | producer _ (.failing stage _) | consumer (.failing stage _) | watcher _ (.failing stage _)
  | breaker (.calling stage) => stage.owes side
  | _ => 0

/-- **The places that an agent is bound to add to a side.** -/
def claim (side : Side) (a : Agent) : Nat := a.out side + a.owes side

/-- A producer has no more items in hand than it is to make. -/
def InQuota (quota : Nat) : Agent → Prop
  | producer _ (.ready n) | producer _ (.holding n) | producer _ (.moved n) => n < quota
  | _ => True

/-- What a step keeps of an agent. -/
structure Follows (quota : Nat) (a a' : Agent) : Prop where
  name : a'.name? = a.name?
  upright : a'.isCrashed = false
  quota : a.InQuota quota → a'.InQuota quota

theorem follows_upTo {quota id n : Nat} {place : ProducerPlace} :
    Follows quota (producer id place) (producer id (.upTo quota n)) := by
  unfold ProducerPlace.upTo
  split
  · rename_i hlt
    exact ⟨rfl, rfl, fun _ => hlt⟩
  · exact ⟨rfl, rfl, fun _ => trivial⟩

theorem claim_upTo (quota id n : Nat) (side : Side) : (producer id (.upTo quota n)).claim side = 0 := by
  unfold ProducerPlace.upTo
  split <;> cases side <;> rfl

end Agent

/-- The places of a side that are counted, and those that somebody with these claims claims. -/
def Monitor.stake (m : Monitor) (claim : Side → Nat) (side : Side) : Nat := (m.slots.get side).value + claim side

/-- **What a step does to the places of each side**, from the claims of whoever takes it before and after. -/
inductive StakeChange (m : Monitor) (claim : Side → Nat) (m' : Monitor) (claim' : Side → Nat) : Prop where
  | even : m'.state.failed = m.state.failed → (∀ side, m'.stake claim' side = m.stake claim side) →
      StakeChange m claim m' claim'
  /-- An item went in or out, so a place went from one side to the other. -/
  | across : m.state.failed = false → m'.state.failed = false →
      m'.stake claim' .free + m'.stake claim' .filled = m.stake claim .free + m.stake claim .filled →
      StakeChange m claim m' claim'
  | marks : m.state.failed = false → m'.state.failed = true → m'.state.done = true →
      (∀ side, m'.stake claim' side = m.stake claim side + 1) → StakeChange m claim m' claim'

/-- **A step carries the places over**: it leaves the gate alone and changes the places of each side as it may. -/
structure StakesCarried (m : Monitor) (claim : Side → Nat) (m' : Monitor) (claim' : Side → Nat) : Prop where
  config : m'.config = m.config
  start : m'.state.start = m.state.start
  done : m.state.done = true → m'.state.done = true
  change : StakeChange m claim m' claim'

section
variable {m m' : Monitor} {claim claim' : Side → Nat}

namespace StakesCarried

/-- A step that leaves the counters alone and claims what was claimed. -/
theorem still (h : m.Undisturbed m') (hclaim : ∀ side, claim' side = claim side) : StakesCarried m claim m' claim' := by
  refine ⟨h.config, h.start, h.done, .even h.failed fun side => ?_⟩
  rw [Monitor.stake, Monitor.stake, h.slots, hclaim]

theorem across (h : m.Undisturbed m') (hfailed : m.state.failed = false)
    (hclaim : claim' .free + claim' .filled = claim .free + claim .filled) : StakesCarried m claim m' claim' := by
  refine ⟨h.config, h.start, h.done, .across hfailed (h.failed.trans hfailed) ?_⟩
  unfold Monitor.stake
  rw [h.slots]
  omega

theorem taken {side : Side} (h : m.take? side = some m') (hclaim : claim' side = claim side + 1)
    (hother : claim' side.other = claim side.other) : StakesCarried m claim m' claim' := by
  obtain ⟨hslots, hstate, hconfig⟩ := Monitor.take?_eq_some h
  obtain ⟨hvalue, hsame⟩ := Slots.take?_values hslots
  refine ⟨hconfig, by rw [hstate], by rw [hstate]; exact id, .even (by rw [hstate]) fun x => ?_⟩
  unfold Monitor.stake
  by_cases hx : x = side
  · subst hx
    omega
  · rw [Side.eq_other hx, hsame, hother]

theorem posted {side : Side} {s : Slots} (h : m.slots.post side = .ok s) (hclaim : claim' side + 1 = claim side)
    (hother : claim' side.other = claim side.other) : StakesCarried m claim { m with slots := s } claim' := by
  obtain ⟨hvalue, hsame⟩ := Slots.post_values h
  refine ⟨rfl, rfl, id, .even rfl fun x => ?_⟩
  unfold Monitor.stake
  by_cases hx : x = side
  · subst hx
    simp only
    omega
  · rw [Side.eq_other hx, hother]
    simp only [hsame]

/-- In a failed run every side keeps its places. -/
theorem of_failed (h : StakesCarried m claim m' claim') (hfailed : m.state.failed = true) :
    m'.state.failed = true ∧ ∀ side, m'.stake claim' side = m.stake claim side := by
  cases h.change with
  | even hsame hstake => exact ⟨hsame.trans hfailed, hstake⟩
  | across hno _ _ | marks hno _ _ _ =>
    rw [hfailed] at hno
    cases hno

end StakesCarried

/-! ## A call that fails the run -/

/-- **A step of the call meets no fault** where the counters that it adds to are below their limit. -/
theorem FailStage.step_stakes (stage : FailStage)
    (hroom : ∀ side, 0 < stage.owes side → (m.slots.get side).value < slotLimit) :
    ∃ progress m', stage.step m = .ok progress m' ∧ StakesCarried m (stage.owes ·) m' (progress.owes ·) := by
  cases stage with
  | mark =>
    rw [FailStage.step]
    cases hf : m.state.failed with
    | false =>
      obtain ⟨log, hmark⟩ := Act.markFailed_first hf
      rw [Act.bind_ok hmark]
      exact ⟨.next .free, _, rfl, rfl, rfl, fun _ => rfl, .marks hf rfl rfl fun side => by cases side <;> rfl⟩
    | true =>
      rw [Act.bind_ok (Act.markFailed_again hf)]
      exact ⟨.over false, m, rfl, .still ⟨rfl, rfl, rfl, rfl, rfl, id⟩ fun side => by cases side <;> rfl⟩
  | free =>
    obtain ⟨s, hs⟩ := Slots.post_of_lt .free (hroom .free Nat.zero_lt_one)
    rw [FailStage.step, Act.bind_ok (Act.post_ok hs)]
    exact ⟨.next .filled, _, rfl, .posted hs rfl rfl⟩
  | filled =>
    obtain ⟨s, hs⟩ := Slots.post_of_lt .filled (hroom .filled Nat.zero_lt_one)
    rw [FailStage.step, Act.bind_ok (Act.post_ok hs)]
    exact ⟨.over true, _, rfl, .posted hs rfl rfl⟩

/-- A step that carries the places over and leaves the agent who it is, however it ends. -/
structure Agent.CarriesStakes (m : Monitor) (a : Agent) (m' : Monitor) (a' : Agent) : Prop where
  stakes : StakesCarried m (a.claim ·) m' (a'.claim ·)
  follows : a.Follows m.config.itemsPerProducer a'

/-- **An agent that stopped on a fault fails the run and meets no second fault.** -/
theorem FailStage.stepAfter_carriesStakes {π : Type} (agent : π → Agent) (failing : FailStage → π) (faulted : π)
    (crashed : Fault → π) (hfailing : ∀ stage side, (agent (failing stage)).claim side = stage.owes side)
    (hfaulted : ∀ side, (agent faulted).claim side = 0) (stage : FailStage)
    (hnext : ∀ stage', (agent (failing stage)).Follows m.config.itemsPerProducer (agent (failing stage')))
    (hover : (agent (failing stage)).Follows m.config.itemsPerProducer (agent faulted))
    (hroom : ∀ side, 0 < (agent (failing stage)).claim side → (m.slots.get side).value < slotLimit) :
    Agent.CarriesStakes m (agent (failing stage)) (stage.stepAfter failing faulted crashed m).2
      (agent (stage.stepAfter failing faulted crashed m).1) := by
  simp only [hfailing] at hroom
  obtain ⟨progress, m₁, hstep, hstakes⟩ := stage.step_stakes hroom
  unfold FailStage.stepAfter
  rw [hstep]
  rcases progress with stage' | first
  · refine ⟨?_, hnext stage'⟩
    simp only [hfailing]
    exact hstakes
  · refine ⟨?_, hover⟩
    simp only [hfailing, hfaulted]
    exact hstakes

/-! ## Every step -/

theorem producer_carriesStakes {k : Nat} {place place' : ProducerPlace}
    (hroom : ∀ side, 0 < (Agent.producer k place).claim side → (m.slots.get side).value < slotLimit)
    (h : place.step k m = some (place', m')) : Agent.CarriesStakes m (.producer k place) m' (.producer k place') := by
  cases place with
  | gate =>
    simp only [ProducerPlace.step] at h
    split at h
    · split at h
      · cases h
        exact ⟨.still ⟨rfl, rfl, rfl, rfl, rfl, id⟩ fun side => by cases side <;> rfl, ⟨rfl, rfl, fun _ => trivial⟩⟩
      · cases h
        refine ⟨.still ⟨rfl, rfl, rfl, rfl, rfl, id⟩ fun side => ?_, Agent.follows_upTo⟩
        rw [Agent.claim_upTo]
        cases side <;> rfl
    · cases h
  | ready n =>
    simp only [ProducerPlace.step] at h
    split at h
    · cases h
      exact ⟨.still ⟨rfl, rfl, rfl, rfl, rfl, id⟩ fun side => by cases side <;> rfl, ⟨rfl, rfl, fun _ => trivial⟩⟩
    · obtain ⟨m₁, hm₁, heq⟩ := Option.map_eq_some_iff.1 h
      cases heq
      exact ⟨.taken hm₁ rfl rfl, ⟨rfl, rfl, id⟩⟩
  | holding n =>
    simp only [ProducerPlace.step] at h
    split at h
    · cases h
      exact ⟨.still ⟨rfl, rfl, rfl, rfl, rfl, id⟩ fun side => by cases side <;> rfl, ⟨rfl, rfl, fun _ => trivial⟩⟩
    · rename_i hfailed
      have hrest := (Act.handIn_after (.of k n) m).1
      split at h
      · rename_i hdeed
        rw [Act.after_ok hdeed] at hrest
        cases h
        exact ⟨.across hrest (by simpa using hfailed) rfl, ⟨rfl, rfl, id⟩⟩
      · rename_i hdeed
        rw [Act.after_error hdeed] at hrest
        cases h
        exact ⟨.still hrest fun side => by cases side <;> rfl, ⟨rfl, rfl, fun _ => trivial⟩⟩
  | moved n =>
    obtain ⟨s, hs⟩ := Slots.post_of_lt .filled (hroom .filled Nat.zero_lt_one)
    simp only [ProducerPlace.step, hs] at h
    cases h
    exact ⟨.posted hs (by rw [Agent.claim_upTo]; rfl) (by rw [Agent.claim_upTo]; rfl), Agent.follows_upTo⟩
  | stopping n =>
    obtain ⟨s, hs⟩ := Slots.post_of_lt .free (hroom .free Nat.zero_lt_one)
    simp only [ProducerPlace.step, hs] at h
    cases h
    exact ⟨.posted hs rfl rfl, ⟨rfl, rfl, fun _ => trivial⟩⟩
  | unwinding f =>
    obtain ⟨s, hs⟩ := Slots.post_of_lt .free (hroom .free Nat.zero_lt_one)
    simp only [ProducerPlace.step, hs] at h
    cases h
    exact ⟨.posted hs rfl rfl, ⟨rfl, rfl, fun _ => trivial⟩⟩
  | failing stage f =>
    have hclaim (stage : FailStage) (side : Side) :
        (Agent.producer k (.failing stage f)).claim side = stage.owes side := by
      cases side <;> exact Nat.zero_add _
    have hcarries := FailStage.stepAfter_carriesStakes (m := m) (Agent.producer k) (ProducerPlace.failing · f)
      (.faulted f) (.crashed f) hclaim (fun side => by cases side <;> rfl) stage (fun _ => ⟨rfl, rfl, fun _ => trivial⟩)
      ⟨rfl, rfl, fun _ => trivial⟩ hroom
    rw [ProducerPlace.step, Option.some.injEq] at h
    rw [h] at hcarries
    exact hcarries
  | finished | faulted | crashed => cases h

theorem consumer_carriesStakes {place place' : ConsumerPlace}
    (hroom : ∀ side, 0 < (Agent.consumer place).claim side → (m.slots.get side).value < slotLimit)
    (h : place.step m = some (place', m')) : Agent.CarriesStakes m (.consumer place) m' (.consumer place') := by
  cases place with
  | gate =>
    simp only [ConsumerPlace.step] at h
    split at h
    · split at h <;> cases h <;>
        exact ⟨.still ⟨rfl, rfl, rfl, rfl, rfl, id⟩ fun side => by cases side <;> rfl, ⟨rfl, rfl, id⟩⟩
    · cases h
  | ready =>
    obtain ⟨m₁, hm₁, heq⟩ := Option.map_eq_some_iff.1 h
    cases heq
    exact ⟨.taken hm₁ rfl rfl, ⟨rfl, rfl, id⟩⟩
  | holding =>
    simp only [ConsumerPlace.step] at h
    split at h
    · cases h
      exact ⟨.still ⟨rfl, rfl, rfl, rfl, rfl, id⟩ fun side => by cases side <;> rfl, ⟨rfl, rfl, id⟩⟩
    · rename_i hfailed
      have hrest := (Act.takeOut_after m).1
      split at h
      · rename_i hdeed
        rw [Act.after_ok hdeed] at hrest
        cases h
        exact ⟨.across hrest (by simpa using hfailed) rfl, ⟨rfl, rfl, id⟩⟩
      · rename_i hdeed
        rw [Act.after_error hdeed] at hrest
        cases h
        exact ⟨.still hrest fun side => by cases side <;> rfl, ⟨rfl, rfl, id⟩⟩
  | moved last =>
    obtain ⟨s, hs⟩ := Slots.post_of_lt .free (hroom .free Nat.zero_lt_one)
    simp only [ConsumerPlace.step, hs] at h
    cases h
    cases last <;> exact ⟨.posted hs rfl rfl, ⟨rfl, rfl, id⟩⟩
  | stopping n =>
    obtain ⟨s, hs⟩ := Slots.post_of_lt .filled (hroom .filled Nat.zero_lt_one)
    simp only [ConsumerPlace.step, hs] at h
    cases h
    exact ⟨.posted hs rfl rfl, ⟨rfl, rfl, id⟩⟩
  | unwinding f =>
    obtain ⟨s, hs⟩ := Slots.post_of_lt .filled (hroom .filled Nat.zero_lt_one)
    simp only [ConsumerPlace.step, hs] at h
    cases h
    exact ⟨.posted hs rfl rfl, ⟨rfl, rfl, id⟩⟩
  | failing stage f =>
    have hclaim (stage : FailStage) (side : Side) :
        (Agent.consumer (.failing stage f)).claim side = stage.owes side := by
      cases side <;> exact Nat.zero_add _
    have hcarries := FailStage.stepAfter_carriesStakes (m := m) Agent.consumer (ConsumerPlace.failing · f) (.faulted f)
      (.crashed f) hclaim (fun side => by cases side <;> rfl) stage (fun _ => ⟨rfl, rfl, id⟩) ⟨rfl, rfl, id⟩ hroom
    rw [ConsumerPlace.step, Option.some.injEq] at h
    rw [h] at hcarries
    exact hcarries
  | finished | faulted | crashed => cases h

theorem watcher_carriesStakes {k : Nat} {place place' : WatcherPlace}
    (hroom : ∀ side, 0 < (Agent.watcher k place).claim side → (m.slots.get side).value < slotLimit)
    (h : place.step k m = some (place', m')) : Agent.CarriesStakes m (.watcher k place) m' (.watcher k place') := by
  cases place with
  | gate =>
    simp only [WatcherPlace.step] at h
    split at h
    · split at h <;> cases h <;>
        exact ⟨.still ⟨rfl, rfl, rfl, rfl, rfl, id⟩ fun side => by cases side <;> rfl, ⟨rfl, rfl, id⟩⟩
    · cases h
  | waiting =>
    simp only [WatcherPlace.step] at h
    split at h
    · split at h
      · cases h
        exact ⟨.still ⟨rfl, rfl, rfl, rfl, rfl, id⟩ fun side => by cases side <;> rfl, ⟨rfl, rfl, id⟩⟩
      · have hrest := (Act.announce_counts k m).1
        split at h
        · rename_i hdeed
          rw [Act.after_ok hdeed] at hrest
          cases h
          exact ⟨.still hrest fun side => by cases side <;> rfl, ⟨rfl, rfl, id⟩⟩
        · rename_i hdeed
          rw [Act.after_error hdeed] at hrest
          cases h
          exact ⟨.still hrest fun side => by cases side <;> rfl, ⟨rfl, rfl, id⟩⟩
    · cases h
  | failing stage f =>
    have hclaim (stage : FailStage) (side : Side) :
        (Agent.watcher k (.failing stage f)).claim side = stage.owes side := by
      cases side <;> exact Nat.zero_add _
    have hcarries := FailStage.stepAfter_carriesStakes (m := m) (Agent.watcher k) (WatcherPlace.failing · f)
      (.faulted f) (.crashed f) hclaim (fun side => by cases side <;> rfl) stage (fun _ => ⟨rfl, rfl, id⟩)
      ⟨rfl, rfl, id⟩ hroom
    rw [WatcherPlace.step, Option.some.injEq] at h
    rw [h] at hcarries
    exact hcarries
  | finished | faulted | crashed => cases h

theorem breaker_carriesStakes {place place' : BreakerPlace}
    (hroom : ∀ side, 0 < (Agent.breaker place).claim side → (m.slots.get side).value < slotLimit)
    (h : place.step m = some (place', m')) : Agent.CarriesStakes m (.breaker place) m' (.breaker place') := by
  cases place with
  | calling stage =>
    have hclaim (stage : FailStage) (side : Side) : (Agent.breaker (.calling stage)).claim side = stage.owes side := by
      cases side <;> exact Nat.zero_add _
    simp only [hclaim] at hroom
    obtain ⟨progress, m₁, hstep, hstakes⟩ := stage.step_stakes hroom
    rw [BreakerPlace.step, hstep] at h
    rcases progress with stage' | first
    · cases h
      refine ⟨?_, ⟨rfl, rfl, id⟩⟩
      simp only [hclaim]
      exact hstakes
    · have hover (side : Side) : (Agent.breaker (.finished first)).claim side = 0 := by cases side <;> rfl
      cases h
      refine ⟨?_, ⟨rfl, rfl, id⟩⟩
      simp only [hclaim, hover]
      exact hstakes
  | finished | faulted => cases h

/-- **No step finds a counter full** where the counters that the agent claims a place of are below their limit. -/
theorem Agent.step_carriesStakes {a a' : Agent}
    (hroom : ∀ side, 0 < a.claim side → (m.slots.get side).value < slotLimit)
    (h : a.step m = some (a', m')) : CarriesStakes m a m' a' := by
  cases a with
  | producer id place =>
    obtain ⟨place', hp, rfl⟩ := Agent.exists_place (f := Agent.producer id) h
    exact producer_carriesStakes hroom hp
  | consumer place =>
    obtain ⟨place', hp, rfl⟩ := Agent.exists_place (f := Agent.consumer) h
    exact consumer_carriesStakes hroom hp
  | watcher id place =>
    obtain ⟨place', hp, rfl⟩ := Agent.exists_place (f := Agent.watcher id) h
    exact watcher_carriesStakes hroom hp
  | starter verdict =>
    obtain ⟨rfl, rfl, proceed, rfl⟩ := Agent.starter_step h
    exact ⟨.still ⟨rfl, rfl, rfl, rfl, rfl, id⟩ fun side => by cases side <;> rfl, ⟨rfl, rfl, id⟩⟩
  | finisher found =>
    obtain ⟨rfl, rfl, flags, rfl⟩ := Agent.finisher_step h
    exact ⟨.still ⟨rfl, rfl, rfl, rfl, rfl, id⟩ fun side => by cases side <;> rfl, ⟨rfl, rfl, id⟩⟩
  | breaker place =>
    obtain ⟨place', hp, rfl⟩ := Agent.exists_place (f := Agent.breaker) h
    exact breaker_carriesStakes hroom hp

end

/-! ## All agents together -/

namespace System

variable {c : Config} {s s' : System} {i : Nat}

/-- The places of a side that are counted, and those that agents claim. -/
def stake (s : System) (side : Side) : Nat := (s.monitor.slots.get side).value + s.tally (Agent.claim side)

/-- **The places of both sides are all there, and a failed run has one of its own on each side.** -/
structure Staked (c : Config) (s : System) : Prop where
  config : s.monitor.config = c
  total : s.stake .free + s.stake .filled = c.capacity + 2 * s.monitor.state.failed.toNat
  share : ∀ side, s.monitor.state.failed.toNat ≤ s.stake side
  done : s.monitor.state.failed = true → s.monitor.state.done = true
  standing : s.halted = false
  upright : ∀ a ∈ s.agents.toList, a.isCrashed = false
  quota : ∀ a ∈ s.agents.toList, a.InQuota c.itemsPerProducer

theorem Staked.stake_le (h : s.Staked c) (side : Side) : s.stake side ≤ c.capacity + 1 := by
  have htotal := h.total
  have hfree := h.share .free
  have hfilled := h.share .filled
  have hone := Bool.toNat_le s.monitor.state.failed
  cases side <;> omega

/-- A counter that somebody claims a place of is not full. -/
theorem Staked.room (h : s.Staked c) (hc : c.capacity < slotLimit) {a : Agent} (ha : a ∈ s.agents.toList) (side : Side)
    (hclaim : 0 < a.claim side) : (s.monitor.slots.get side).value < slotLimit := by
  have hle := h.stake_le side
  have htally := s.le_tally (Agent.claim side) ha
  unfold stake at hle
  omega

theorem Replaces.stake_eq {a a' : Agent} (h : Replaces s s' i a a') (side : Side) :
    s'.stake side + s.monitor.stake (a.claim ·) side = s.stake side + s'.monitor.stake (a'.claim ·) side := by
  have htally := h.tally_eq (Agent.claim side)
  simp only [stake, Monitor.stake]
  omega

/-- **A step keeps the places**, and nobody meets a second fault. -/
theorem Staked.step (h : s.Staked c) (hc : c.capacity < slotLimit) (hstep : s.step i = some s') : s'.Staked c := by
  obtain ⟨-, a, a', hr, ha, hhalted⟩ := step_eq_some hstep
  obtain ⟨ht, hfollows⟩ := Agent.step_carriesStakes (h.room hc hr.mem) ha
  rw [h.config] at hfollows
  have hfree := hr.stake_eq .free
  have hfilled := hr.stake_eq .filled
  have htotal := h.total
  have hshare := h.share
  refine ⟨ht.config.trans h.config, ?_, ?_, ?_, hhalted.trans hfollows.upright, ?_, ?_⟩
  · cases ht.change with
    | even hfailed hsame =>
      rw [hsame] at hfree hfilled
      rw [hfailed]
      omega
    | across hfailed hfailed' hsum =>
      rw [hfailed] at htotal
      rw [hfailed']
      omega
    | marks hfailed hfailed' _ hmore =>
      rw [hmore] at hfree hfilled
      rw [hfailed, Bool.toNat_false] at htotal
      rw [hfailed', Bool.toNat_true]
      omega
  · intro side
    have hside := hr.stake_eq side
    cases ht.change with
    | even hfailed hsame =>
      rw [hsame] at hside
      rw [hfailed]
      exact (hshare side).trans (by omega)
    | across _ hfailed' _ =>
      -- a side may lose its last place here, which is why items must not move in a failed run
      rw [hfailed']
      exact Nat.zero_le _
    | marks _ hfailed' _ hmore =>
      rw [hmore] at hside
      rw [hfailed', Bool.toNat_true]
      omega
  · intro hfailed'
    cases ht.change with
    | even hfailed _ => exact ht.done (h.done (hfailed.symm.trans hfailed'))
    | across _ hno _ => rw [hno] at hfailed'; cases hfailed'
    | marks _ _ hdone _ => exact hdone
  · intro x hx
    rcases hr.mem_after hx with rfl | ⟨j, -, hj⟩
    · exact hfollows.upright
    · exact h.upright x (List.mem_of_getElem? hj)
  · intro x hx
    rcases hr.mem_after hx with rfl | ⟨j, -, hj⟩
    · exact hfollows.quota (h.quota a hr.mem)
    · exact h.quota x (List.mem_of_getElem? hj)

end System
end Handover
