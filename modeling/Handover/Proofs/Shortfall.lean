import Handover.Proofs.Release
/-!
# Shortfall — a place that is lost at a full counter

With the largest capacity a counter has no room for the place that a failure adds.  Whoever is to add a place to a full
counter stops on a fault (`Falls`), and its place is lost.  That happens once at most.  It takes a buffer that is empty
or full, so that all its places are on one side; with one of them lost the counter of that side has room for all that is
claimed of it, and on the other side there are two places at most.  So a system without room for a failure is balanced,
or one agent has stopped on a fault and one place is missing (`System.BalancedOrShort`).
-/
namespace Handover

/-- **The table of those who find a counter full**, before and after, with the side that they are to add a place to. -/
inductive Falls : Agent → Side → Agent → Prop where
  | producerPasses (id n : Nat) :
      Falls (.producer id (.moved n)) .filled (.producer id (.unwinding .slotOverflow))
  | producerGivesBack (id n : Nat) :
      Falls (.producer id (.stopping n)) .free (.producer id (.failing .mark .slotOverflow))
  | consumerPasses (last : Option Nat) :
      Falls (.consumer (.moved last)) .free (.consumer (.unwinding .slotOverflow))
  | consumerGivesBack (n : Nat) :
      Falls (.consumer (.stopping n)) .filled (.consumer (.failing .mark .slotOverflow))
  | breakerFrees : Falls (.breaker (.calling .free)) .free (.breaker (.faulted .slotOverflow))
  | breakerFills : Falls (.breaker (.calling .filled)) .filled (.breaker (.faulted .slotOverflow))

/-- Who falls lost its claim, and may have taken one on the other side. -/
theorem Falls.claim_eq {a a' : Agent} {side : Side} (h : Falls a side a') :
    a.claim side = 1 ∧ a'.claim side = 0 ∧ a'.claim side.other ≤ a.claim side.other + 1 := by
  cases h with
  | producerPasses | consumerPasses => exact ⟨rfl, rfl, Nat.le_refl _⟩
  | producerGivesBack | consumerGivesBack | breakerFrees | breakerFills => exact ⟨rfl, rfl, Nat.zero_le _⟩

section
variable {m m' : Monitor}

/-- **Whoever met no fault and meets one in a failed run has found a counter full**, as far as its items have values. -/
theorem falls_of_step {a a' : Agent} (hf : m.state.failed = true) (hwhole : a.isFaulty = false)
    (hmember : a.isMember = true) (hvalue : ∀ id n, a = .producer id (.ready n) → Item.valueOf id n < Word.limit)
    (hnot : ¬ a.Safe m) (h : a.step m = some (a', m')) :
    ∃ side, Falls a side a' ∧ ¬ (m.slots.get side).value < slotLimit ∧ m'.slots = m.slots := by
  have hnever {P : Prop} : m.state.failed = false → P := fun hno => absurd (hf.symm.trans hno) nofun
  cases a with
  | producer id place =>
    obtain ⟨place', hp, rfl⟩ := Agent.exists_place (f := Agent.producer id) h
    cases place with
    | gate | finished => exact absurd trivial hnot
    | ready n => exact absurd (hvalue id n rfl) hnot
    | holding n => exact absurd hnever hnot
    | moved n =>
      simp only [ProducerPlace.step, Slots.post_of_not_lt .filled hnot] at hp
      cases hp
      exact ⟨.filled, .producerPasses id n, hnot, rfl⟩
    | stopping n =>
      simp only [ProducerPlace.step, Slots.post_of_not_lt .free hnot] at hp
      cases hp
      exact ⟨.free, .producerGivesBack id n, hnot, rfl⟩
    | unwinding | failing | faulted | crashed => cases hwhole
  | consumer place =>
    obtain ⟨place', hp, rfl⟩ := Agent.exists_place (f := Agent.consumer) h
    cases place with
    | gate | ready | finished => exact absurd trivial hnot
    | holding => exact absurd hnever hnot
    | moved last =>
      simp only [ConsumerPlace.step, Slots.post_of_not_lt .free hnot] at hp
      cases hp
      exact ⟨.free, .consumerPasses last, hnot, rfl⟩
    | stopping n =>
      simp only [ConsumerPlace.step, Slots.post_of_not_lt .filled hnot] at hp
      cases hp
      exact ⟨.filled, .consumerGivesBack n, hnot, rfl⟩
    | unwinding | failing | faulted | crashed => cases hwhole
  | watcher id place =>
    cases place with
    | gate | finished => exact absurd trivial hnot
    | waiting => exact absurd hnever hnot
    | failing | faulted | crashed => cases hwhole
  | breaker place =>
    obtain ⟨place', hp, rfl⟩ := Agent.exists_place (f := Agent.breaker) h
    cases place with
    | calling stage =>
      cases stage with
      | mark => exact absurd trivial hnot
      | free =>
        rw [BreakerPlace.step, FailStage.step,
          Act.bind_error (Act.post_error (Slots.post_of_not_lt .free hnot))] at hp
        cases hp
        exact ⟨.free, .breakerFrees, hnot, rfl⟩
      | filled =>
        rw [BreakerPlace.step, FailStage.step,
          Act.bind_error (Act.post_error (Slots.post_of_not_lt .filled hnot))] at hp
        cases hp
        exact ⟨.filled, .breakerFills, hnot, rfl⟩
    | finished => exact absurd trivial hnot
    | faulted => cases hwhole
  | starter | finisher => cases hmember

end

/-- A call that has marked the run owes each of its places or has added it. -/
theorem Agent.owes_add_added {a : Agent} (h : a.isFaulty = false) (side : Side) :
    a.owes side + a.added side = a.isMarker.toNat := by
  cases a with
  | producer id place =>
    cases place with
    | failing => cases h
    | _ => cases side <;> rfl
  | consumer place =>
    cases place with
    | failing => cases h
    | _ => cases side <;> rfl
  | watcher id place =>
    cases place with
    | failing => cases h
    | _ => cases side <;> rfl
  | breaker place =>
    cases place with
    | calling stage => cases stage <;> cases side <;> rfl
    | finished first => cases first <;> cases side <;> rfl
    | faulted => cases h
  | starter | finisher => cases side <;> rfl

namespace System

variable {c : Config} {s s' : System} {a a' : Agent} {i : Nat} {side : Side}

/-- **In a balanced system the places counted or claimed are the buffer's**, and one more once it has failed. -/
theorem Balanced.stake_eq (hb : s.Balanced c) (hs : s.Sound c) (side : Side) :
    s.stake side = s.monitor.state.places c side + s.monitor.state.failed.toNat := by
  have haccounts := hb.accounts side
  have hclaims : s.tally (Agent.claim side) = s.tally (Agent.out side) + s.tally (Agent.owes side) :=
    s.tally_add (Agent.out side) (Agent.owes side)
  have hmarked : s.tally (Agent.owes side) + s.tally (Agent.added side) = s.monitor.state.failed.toNat := by
    rw [← hs.marked, count_eq_tally, ← tally_add]
    exact tally_congr fun a ha => Agent.owes_add_added (hb.whole a ha) side
  unfold stake
  omega

/-- **One place of a side is missing**, which has all the places of the buffer, and one agent has stopped on a fault. -/
structure Short (c : Config) (side : Side) (s : System) : Prop where
  failed : s.monitor.state.failed = true
  full : s.monitor.state.places c side = slotLimit
  own : s.stake side = slotLimit
  other : s.stake side.other ≤ 2
  one : s.count Agent.isFaulty = 1

def BalancedOrShort (c : Config) (s : System) : Prop := s.Balanced c ∨ ∃ side, s.Short c side

namespace Sound

theorem valuesFit (hs : s.Sound c) (hc : c.Fits) (ha : a ∈ s.agents.toList) : a.ValuesFit c.itemsPerProducer := by
  intro id hid n hn
  cases a with
  | producer p place =>
    cases hid
    exact hc.value_lt (hs.producer_lt ha) hn
  | consumer | watcher | starter | finisher | breaker => cases hid

theorem inQuota (hs : s.Sound c) (ha : a ∈ s.agents.toList) : a.InQuota c.itemsPerProducer := by
  have hstands := hs.stands a ha
  cases a with
  | producer id place =>
    cases place with
    | ready | holding | moved => exact hstands.2
    | gate | stopping | unwinding | failing | finished | faulted | crashed => trivial
  | consumer | watcher | starter | finisher | breaker => trivial

/-- **A fault takes a balanced system to one that is short of a place.** -/
theorem short_of_fault (hs : s.Sound c) (hc : c.Fits) (hb : s.Balanced c) (hf : s.monitor.state.failed = true)
    (hr : Replaces s s' i a a') (ha : a.step s.monitor = some (a', s'.monitor))
    (hfault : FaultsTo s.monitor a a' s'.monitor) : ∃ side, s'.Short c side := by
  have hnot : ¬ a.Safe s.monitor := by
    intro hsafe
    obtain ⟨-, e, ht, -⟩ := step_of_safe hsafe ha
    exact Bool.false_ne_true (ht.isFaulty_eq.symm.trans hfault.faulty)
  obtain ⟨side, hfalls, hfull, hslots⟩ := falls_of_step hf (hb.whole a hr.mem) (hs.stands a hr.mem).isMember
    (fun id n hready => hs.valuesFit hc hr.mem id (by rw [hready]; rfl) n (by
      have hquota := hs.inQuota hr.mem
      rw [hready] at hquota
      exact hquota)) hnot ha
  obtain ⟨hclaim, hclaim', hother⟩ := hfalls.claim_eq
  have hown : s'.stake side + 1 = s.stake side := by
    have hside := hr.stake_eq side
    simp only [Monitor.stake, hclaim, hclaim', hslots] at hside
    omega
  have hrest : s'.stake side.other ≤ s.stake side.other + 1 := by
    have hside := hr.stake_eq side.other
    simp only [Monitor.stake, hslots] at hside
    omega
  -- a full counter and a claim are one place more than the limit, which is as many as there can be
  have hplaces : s.monitor.state.places c side = slotLimit ∧ s.monitor.state.places c side.other = 0 ∧
      s.stake side = slotLimit + 1 := by
    have hstake := hb.stake_eq hs side
    have htally := s.le_tally (Agent.claim side) hr.mem
    have hlen := hs.coherent.len_le
    have hcap := hc.capacity_le
    rw [hf, Bool.toNat_true] at hstake
    unfold stake at hstake ⊢
    cases side <;> simp only [State.places, Side.other] at hstake ⊢ <;> omega
  have hstakeOther := hb.stake_eq hs side.other
  rw [hf, hplaces.2.1, Bool.toNat_true] at hstakeOther
  refine ⟨side, by rw [hfault.state]; exact hf, by rw [hfault.state]; exact hplaces.1, by omega, by omega, ?_⟩
  · have hcount := hr.count_eq Agent.isFaulty
    rw [hb.whole a hr.mem, hfault.faulty, count_eq_zero hb.whole] at hcount
    exact hcount

end Sound

namespace Short

/-- Who claims a place finds room for it. -/
theorem room (h : s.Short c side) (ha : a ∈ s.agents.toList) (x : Side) (hclaim : 0 < a.claim x) :
    (s.monitor.slots.get x).value < slotLimit := by
  have htally := s.le_tally (Agent.claim x) ha
  have hlimit : 2 < slotLimit := by decide
  by_cases hx : x = side
  · subst hx
    have hown := h.own
    unfold stake at hown
    omega
  · have hother := h.other
    rw [← Side.eq_other hx] at hother
    unfold stake at hother
    omega

/-- **A step leaves a system short of that one place**: nobody else stops on a fault. -/
theorem step (h : s.Short c side) (hs : s.Sound c) (hc : c.Fits) (hstep : s.step i = some s') : s'.Short c side := by
  obtain ⟨-, a, a', hr, ha, -⟩ := step_eq_some hstep
  have hroom := h.room hr.mem
  have hstate := hs.state_of_failed hc h.failed hstep
  obtain ⟨-, hcarried⟩ := (Agent.step_carriesStakes hroom ha).stakes.of_failed h.failed
  have hstake (x : Side) : s'.stake x = s.stake x := by
    have hx := hr.stake_eq x
    rw [hcarried, Nat.add_right_cancel_iff] at hx
    exact hx
  have hfaulty : a'.isFaulty = a.isFaulty := by
    cases hwhole : a.isFaulty with
    | false =>
      have hremains := Agent.step_remains h.failed hroom (by rw [hs.config]; exact hs.inQuota hr.mem) ha
      exact hremains.whole (by rw [hs.config]; exact hs.valuesFit hc hr.mem) hwhole
    | true =>
      rcases step_of_failed h.failed (hs.stands a hr.mem).isMember ha with ⟨-, e, ht, -⟩ | hfault
      · rw [ht.whole_before] at hwhole
        cases hwhole
      · exact hfault.faulty
  refine ⟨by rw [hstate]; exact h.failed, by rw [hstate]; exact h.full, (hstake side).trans h.own,
    by rw [hstake]; exact h.other, (hr.count_eq_of_eq hfaulty).trans h.one⟩

end Short

/-- **A step keeps a system balanced, or takes one place away for good.** -/
theorem BalancedOrShort.step (h : s.BalancedOrShort c) (hs : s.Sound c) (hc : c.Fits) (hstep : s.step i = some s') :
    s'.BalancedOrShort c := by
  rcases h with hb | ⟨side, hshort⟩
  · obtain ⟨-, a, a', hr, ha, hhalted⟩ := step_eq_some hstep
    have hs' := hs.step hc hstep
    by_cases hroomy : s.Roomy
    · obtain ⟨-, e, ht, he⟩ := step_of_safe (hs.safe hroomy hc hr.mem) ha
      exact .inl (hs.turn_balanced hb hr hhalted ht he hs'.coherent)
    · have hf := failed_of_not_roomy hroomy
      rcases step_of_failed hf (hs.stands a hr.mem).isMember ha with ⟨-, e, ht, he⟩ | hfault
      · exact .inl (hs.turn_balanced hb hr hhalted ht he hs'.coherent)
      · exact .inr (hs.short_of_fault hc hb hf hr ha hfault)
  · exact .inr ⟨side, hshort.step hs hc hstep⟩

/-! ## Newcomers and the gate -/

theorem stake_join (s : System) (name : AgentName) (side : Side) :
    (s.join (.atGate name)).stake side = s.stake side := by
  have hclaim : (Agent.atGate name).claim side = 0 := by
    cases name <;> cases side <;> rfl
  rw [stake, tally_join, hclaim]
  rfl

theorem BalancedOrShort.join (h : s.BalancedOrShort c) (name : AgentName) :
    (s.join (.atGate name)).BalancedOrShort c := by
  rcases h with hb | ⟨side, h⟩
  · exact .inl (hb.join name)
  · refine .inr ⟨side, h.failed, h.full, ?_, ?_, ?_⟩
    · rw [stake_join]
      exact h.own
    · rw [stake_join]
      exact h.other
    · rw [count_join, (Agent.atGate_counts name).2.2.2.2.1]
      exact h.one

theorem BalancedOrShort.withGate (h : s.BalancedOrShort c) (aborted start : Bool) (log : List Note) :
    ({ s with monitor := { s.monitor with
        state := { s.monitor.state with aborted := aborted, start := start }, log := log } } :
      System).BalancedOrShort c := by
  rcases h with hb | ⟨side, h⟩
  · exact .inl (hb.withGate aborted start log)
  · exact .inr ⟨side, h.failed, h.full, h.own, h.other, h.one⟩

end System
end Handover
