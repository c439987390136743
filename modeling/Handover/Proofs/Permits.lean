import Handover.Proofs.Underway
/-!
# Permits — the places of the buffer are accounted for

The counters of places know nothing of the buffer, and the buffer knows nothing of the counters.  What ties them
together is where the agents stand: a place that is missing from a counter is in the hands of an agent that holds a
permit or has just used one, and a place too many was added by the call that failed the run.  So whoever holds a permit
finds what it was promised, and no check on the way of any agent fails.
-/
namespace Handover
namespace System

variable {c : Config} {s : System}

theorem count_eq_any {p : Agent → Bool} (h : s.count p ≤ 1) : s.count p = (s.agents.toList.any p).toNat := by
  cases hany : s.agents.toList.any p with
  | false =>
    rw [Bool.toNat_false]
    refine List.countP_eq_zero.2 fun a ha hp => ?_
    rw [List.any_eq_false] at hany
    exact hany a ha hp
  | true =>
    obtain ⟨a, ha, hp⟩ := List.any_eq_true.1 hany
    have hpos : 0 < s.count p := List.countP_pos_iff.2 ⟨a, ha, hp⟩
    rw [Bool.toNat_true]
    omega

theorem tally_out_free (s : System) : s.tally (Agent.out .free) = s.count Agent.holdsFree + s.count Agent.owesFree := by
  rw [count_eq_tally, count_eq_tally, ← tally_add]
  rfl

theorem tally_out_filled (s : System) :
    s.tally (Agent.out .filled) = s.count Agent.owesFilled + s.count Agent.holdsFilled := by
  rw [count_eq_tally, count_eq_tally, ← tally_add]
  rfl

theorem tally_added_free (s : System) : s.tally (Agent.added .free) = s.count Agent.addedFree :=
  (count_eq_tally _ _).symm

theorem tally_added_filled (s : System) : s.tally (Agent.added .filled) = s.count Agent.addedFilled :=
  (count_eq_tally _ _).symm

theorem Sound.consumer_le_one (hs : s.Sound c) : s.count Agent.holdsFilled + s.count Agent.owesFree ≤ 1 := by
  have hconsumers : s.count (Agent.named AgentName.isConsumer) ≤ 1 := by
    rw [← c.countP_roster_consumer]
    exact count_named_le hs.nodup hs.known _
  refine Nat.le_trans ?_ hconsumers
  rw [count_eq_tally, count_eq_tally, count_eq_tally, ← tally_add]
  refine tally_le fun a _ => ?_
  cases a with
  | consumer place => cases place <;> exact Nat.le_of_ble_eq_true rfl
  | producer | watcher | starter | finisher | breaker => exact Nat.zero_le _

end System

namespace Run

variable {c : Config} {calls : Nat} {r : Run}

/-- A run that may be failed from outside only where there is room for it is balanced all through. -/
theorem Underway.roomy (hu : r.Underway c calls) (hcalls : 0 < calls → c.capacity < slotLimit) : r.system.Roomy := by
  intro hf
  have hblamed := hu.sound.blamed hf
  rw [hu.calls] at hblamed
  rw [hu.sound.config]
  exact hcalls hblamed

/-- **Permits are accounted for, and no agent meets a fault.**  In every state of a run, under every schedule of the
launcher, the agents and the calls from outside that fail the run (of which there are none where the capacity is the
largest one): the free places shown, the unused permits of producers and the one the consumer owes make up the free
cells of the buffer and the place that the failing call added; the filled places shown, the permits that producers owe
and the unused one of the consumer make up the items in the buffer and the place that the failing call added.  No
counter is past its limit, whoever holds a permit finds a free cell or an item, and nobody has met a fault. -/
theorem permits_accounted (hc : c.Fits) (calls : Nat) (hcalls : 0 < calls → c.capacity < slotLimit)
    (schedule : List (Option Nat)) {r₀ r : Run} (hstart : Run.start c [] = .ok r₀)
    (hexec : (r₀.withCalls calls).exec schedule = some r) :
    let s := r.system
    let m := s.monitor
    let len := m.state.buffer.len
    (m.slots.free.value + s.count Agent.holdsFree + s.count Agent.owesFree =
        c.capacity - len + (s.agents.toList.any Agent.addedFree).toNat ∧
      m.slots.filled.value + s.count Agent.owesFilled + s.count Agent.holdsFilled =
        len + (s.agents.toList.any Agent.addedFilled).toNat) ∧
    (len ≤ c.capacity ∧ s.count Agent.holdsFilled + s.count Agent.owesFree ≤ 1) ∧
    (m.slots.free.value ≤ slotLimit ∧ m.slots.filled.value ≤ slotLimit) ∧
    (m.state.failed = false →
      (∀ id n, .producer id (.holding n) ∈ s.agents.toList → len < c.capacity) ∧
      (.consumer .holding ∈ s.agents.toList → 0 < len)) ∧
    (∀ a ∈ s.agents.toList, a.isFaulty = false) ∧ s.halted = false := by
  have hu := Underway.exec hc schedule (Underway.start hc hstart calls) hexec
  have hroomy := hu.roomy hcalls
  have hb := hu.sound.balanced hroomy
  have hfree := hb.accounts .free
  have hfilled := hb.accounts .filled
  have hlen := hu.sound.coherent.len_le
  have haddedFree := hu.sound.added_le .free
  have haddedFilled := hu.sound.added_le .filled
  have hbit := Bool.toNat_le r.system.monitor.state.failed
  rw [System.tally_out_free, System.tally_added_free] at hfree
  rw [System.tally_out_filled, System.tally_added_filled] at hfilled
  rw [System.tally_added_free] at haddedFree
  rw [System.tally_added_filled] at haddedFilled
  rw [System.count_eq_any (Nat.le_trans haddedFree hbit)] at hfree
  rw [System.count_eq_any (Nat.le_trans haddedFilled hbit)] at hfilled
  simp only [State.places, Sides.get] at hfree hfilled
  refine ⟨⟨by omega, by omega⟩, ⟨hlen, hu.sound.consumer_le_one⟩, ?_, ?_, hb.whole, hb.upright⟩
  · exact ⟨hb.value_le hroomy hu.sound hc .free, hb.value_le hroomy hu.sound hc .filled⟩
  · intro hf
    exact ⟨fun id n ha => (hu.sound.room hb hc ha hf).1, fun ha => hu.sound.stock hb ha hf⟩

/-- A call from outside has failed the run and added its free place, while one producer holds a permit that it has not
used and another one has not yet passed its permit on. -/
theorem permits_accounted_amid_failure :
    let c : Config := { capacity := 2, producers := 2, itemsPerProducer := 1 }
    let schedule := [none, none, none, none, none, some 3, some 3, some 4, some 4, some 3, some 0, some 0]
    c.Fits ∧ (0 < 1 → c.capacity < slotLimit) ∧ ∃ r₀ r, Run.start c [] = .ok r₀ ∧
      (r₀.withCalls 1).exec schedule = some r ∧
      (r.system.count Agent.holdsFree, r.system.count Agent.owesFilled, r.system.agents.toList.any Agent.addedFree,
        r.system.agents.toList.any Agent.addedFilled) = (1, 1, true, false) ∧
      (r.system.monitor.slots.free.value + r.system.count Agent.holdsFree + r.system.count Agent.owesFree =
          2 - r.system.monitor.state.buffer.len + (r.system.agents.toList.any Agent.addedFree).toNat ∧
        r.system.monitor.slots.filled.value + r.system.count Agent.owesFilled + r.system.count Agent.holdsFilled =
          r.system.monitor.state.buffer.len + (r.system.agents.toList.any Agent.addedFilled).toNat) := by
  intro c schedule
  have hc : c.Fits := ⟨by decide, by decide, by decide⟩
  obtain ⟨r₀, r, hstart, hexec, hseen⟩ := exists_exec c 1 schedule (b := (1, 1, true, false))
    (fun r => (r.system.count Agent.holdsFree, r.system.count Agent.owesFilled,
      r.system.agents.toList.any Agent.addedFree, r.system.agents.toList.any Agent.addedFilled)) (by decide +kernel)
  exact ⟨hc, by decide, r₀, r, hstart, hexec, hseen, (permits_accounted hc 1 (by decide) schedule hstart hexec).1⟩

end Run
end Handover
