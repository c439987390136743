import Handover.Proofs.Insertions
import Handover.Proofs.Journal
/-!
# Order — items are handed over once, in order

Every producer puts its items in one after the other, the ring keeps them in the order in which they came, and the
consumer takes the oldest one.  So at every moment of a run the items consumed and the items in the ring are together
the items produced, in this order, and each producer's items are the first ones of its sequence, as many as it has put
in (`System.InOrder`).
-/
namespace Handover

namespace Turn

variable {m : Monitor} {a a' : Agent} {e : Effect}

/-- What a producer hands in is the next item of its sequence. -/
theorem handed_eq (h : Turn m a e a') (p : Nat) :
    e.handed.filter (·.producer = p) = if a.handsIn p a' then [Item.of p a.inserts] else [] := by
  cases h with
  | producerHandsIn id n =>
    change [Item.of id n].filter (·.producer = p) = if id == p then [Item.of p n] else []
    by_cases hp : id = p
    · subst hp
      simp [Item.of]
    · simp [Item.of, hp]
  | _ => rfl

end Turn

/-! ## The producers' sequences -/

theorem item_of_inOrder {l : List Item} {k : Nat → Nat}
    (h : ∀ p, l.filter (·.producer = p) = (List.range (k p)).map (Item.of p)) {i : Item} (hi : i ∈ l) :
    i = Item.of i.producer i.sequence ∧ i.sequence < k i.producer := by
  have hmem : i ∈ l.filter (·.producer = i.producer) := List.mem_filter.2 ⟨hi, by simp⟩
  rw [h] at hmem
  obtain ⟨n, hlt, hn⟩ := List.mem_map.1 hmem
  rw [← hn]
  exact ⟨rfl, List.mem_range.1 hlt⟩

/-- Items that are in order for each producer have all different origins. -/
theorem nodup_origins {l : List Item} {k : Nat → Nat}
    (h : ∀ p, l.filter (·.producer = p) = (List.range (k p)).map (Item.of p)) :
    (l.map fun i => (i.producer, i.sequence)).Nodup := by
  have hnodup : l.Nodup := List.nodup_iff_count_le_one.2 fun i => by
    have hsequence : ((List.range (k i.producer)).map (Item.of i.producer)).Nodup :=
      List.Nodup.map (fun _ _ heq => congrArg Item.sequence heq) List.nodup_range
    rw [← List.count_filter (p := fun x => decide (x.producer = i.producer)) (by simp), h]
    exact List.nodup_iff_count_le_one.1 hsequence i
  refine (List.nodup_map_iff_inj_on hnodup).2 fun i hi j hj heq => ?_
  rw [Prod.mk.injEq] at heq
  rw [(item_of_inOrder h hi).1, (item_of_inOrder h hj).1, heq.1, heq.2]

theorem inOrder_of_append {l₁ l₂ : List Item} {p n : Nat}
    (h : (l₁ ++ l₂).filter (·.producer = p) = (List.range n).map (Item.of p)) :
    ∃ j ≤ n, l₁.filter (·.producer = p) = (List.range j).map (Item.of p) := by
  rw [List.filter_append] at h
  have hlength := congrArg List.length h
  rw [List.length_append, List.length_map, List.length_range] at hlength
  refine ⟨(l₁.filter (·.producer = p)).length, by omega, ?_⟩
  calc l₁.filter (·.producer = p)
      = ((List.range n).map (Item.of p)).take (l₁.filter (·.producer = p)).length := by rw [← h, List.take_left]
    _ = (List.range (l₁.filter (·.producer = p)).length).map (Item.of p) := by
      rw [← List.map_take, List.take_range, Nat.min_eq_left (by omega)]

namespace System

/-- **The items of each producer are in order**: `k p` of them were put in by producer `p`. -/
structure InOrder (k : Nat → Nat) (s : System) : Prop extends s.PutIn k where
  items : ∀ p, (itemsOf .produced s.monitor.state.journal).filter (·.producer = p) =
    (List.range (k p)).map (Item.of p)

variable {c : Config} {s s' : System} {a a' : Agent} {i : Nat} {k : Nat → Nat}

/-- **A turn keeps the sequences in order.** -/
theorem InOrder.turn (ho : s.InOrder k) (hs : s.Sound c) {e : Effect} (hr : Replaces s s' i a a')
    (ht : Turn s.monitor a e a') (he : e.Leads s.monitor s'.monitor)
    (hitems : itemsOf .produced s'.monitor.state.journal = itemsOf .produced s.monitor.state.journal ++ e.handed) :
    s'.InOrder (fun p => k p + (a.handsIn p a').toNat) := by
  refine ⟨ho.toPutIn.turn hs hr ht he, fun p => ?_⟩
  rw [hitems, List.filter_append, ho.items, ht.handed_eq]
  cases hin : a.handsIn p a' with
  | false => exact List.append_nil _
  | true =>
    have hplace := ho.places a hr.mem p (Agent.name_of_handsIn hin) ht.whole_before
    rw [if_pos rfl, hplace, Bool.toNat_true, List.range_succ, List.map_append]
    rfl

/-- **A step keeps a kept journal and the sequences in order.** -/
theorem InOrder.step (ho : s.InOrder k) (hs : s.Sound c) (hc : c.Fits) (hkeep : c.journal = true)
    (hj : s.monitor.state.Journaled c) (h : s.step i = some s') :
    s'.monitor.state.Journaled c ∧ s'.InOrder (fun p => k p + (System.handsIn p s s' i).toNat) := by
  obtain ⟨a, a', hr, -, -, ⟨-, e, ht, he⟩ | ⟨-, hfault⟩⟩ := hs.step_cases hc h
  · obtain ⟨hj', hitems⟩ :=
      he.journaled hs.config hs.coherent (hs.turn_room hc hr ht he) (hs.turn_stock hr ht he) hkeep hj
    simp only [hr.handsIn_eq]
    exact ⟨hj', ho.turn hs hr ht he hitems⟩
  · simp only [hr.handsIn_eq, Agent.handsIn_of_faulty hfault.faulty, Bool.toNat_false, Nat.add_zero]
    rw [hfault.state]
    exact ⟨hj, ho.toPutIn.fault hr hfault, by rw [hfault.state]; exact ho.items⟩

end System

namespace Run

variable {c : Config} {calls : Nat} {r r' : Run} {k : Nat → Nat}

/-- A kept journal tells the truth, and the sequences are in order. -/
structure KeepsOrder (c : Config) (k : Nat → Nat) (r : Run) : Prop where
  journal : r.system.monitor.state.Journaled c
  order : r.system.InOrder k

theorem Underway.launch_keepsOrder (hu : r.Underway c calls) (h : r.launch = some r') (ho : r.KeepsOrder c k) :
    r'.KeepsOrder c k := by
  obtain ⟨hj, ho⟩ := ho
  rcases hu.launch_cases h with ⟨name, log, -, hnew, rfl⟩ | ⟨log, -, rfl⟩
  · have hjoined := ho.toPutIn.join hnew
    exact ⟨hj, ⟨hjoined.places, hjoined.absent, hjoined.total⟩, ho.items⟩
  · exact ⟨⟨hj.length, hj.told, hj.queue, hj.ends⟩, ⟨ho.places, ho.absent, ho.total⟩, ho.items⟩

/-- **All through a run a kept journal tells the truth, and the sequences are in order.** -/
theorem Underway.exec_keepsOrder (hc : c.Fits) (hkeep : c.journal = true) (schedule : List (Option Nat))
    (hu : r.Underway c calls) (ho : r.KeepsOrder c k) (h : r.exec schedule = some r') :
    r'.KeepsOrder c (fun p => k p + r.insertions p schedule) := by
  refine (exec_insertions (P := fun k r => r.Underway c calls ∧ r.KeepsOrder c k) ?_ ?_ schedule ⟨hu, ho⟩ h).2
  · rintro k r r' ⟨hu, ho⟩ hlaunch
    exact ⟨hu.launch hlaunch, hu.launch_keepsOrder hlaunch ho⟩
  · rintro k r i s ⟨hu, ho⟩ hs
    obtain ⟨hj', ho'⟩ := ho.order.step hu.sound hc hkeep ho.journal hs
    exact ⟨hu.agent_step hc hs, hj', ho'⟩

theorem start_keepsOrder (hc : c.Fits) (h : Run.start c [] = .ok r) (calls : Nat) :
    (r.withCalls calls).KeepsOrder c (fun _ => 0) := by
  have hu := Underway.start hc h calls
  rw [start_ok hc.valid, Except.ok.injEq] at h
  subst h
  have hempty : (State.fresh c).buffer.toList = [] := Buffer.toList_eq (Buffer.empty_holds hc.capacity_pos)
  obtain ⟨-, -, -, hnames⟩ := hu.launched
  rw [show c.onward .consumer = c.roster from rfl, List.append_left_eq_self] at hnames
  exact ⟨⟨rfl, nofun, hempty, [], [], rfl, nofun, nofun, nofun⟩, .none hnames rfl, fun _ => rfl⟩

/-- **Items are handed over once, in order.**  In every state of a run that keeps its journal, under every schedule of
the launcher, the agents and the calls from outside that fail the run: the items consumed and those in the ring, from
the oldest on, are the items produced; those of each producer are the first ones of its sequence, as many as it has put
in, and so are those of them that were consumed; no origin is produced or consumed twice. -/
theorem handed_over_in_order (hc : c.Fits) (hkeep : c.journal = true) (calls : Nat) (schedule : List (Option Nat))
    {r₀ r : Run} (hstart : Run.start c [] = .ok r₀) (hexec : (r₀.withCalls calls).exec schedule = some r) :
    let s := r.system.monitor.state
    let produced := itemsOf .produced s.journal
    let consumed := itemsOf .consumed s.journal
    let inserted := fun p => (r₀.withCalls calls).insertions p schedule
    (consumed ++ s.buffer.toList = produced ∧ s.buffer.toList.length = s.buffer.len) ∧
    (∀ p, produced.filter (·.producer = p) = (List.range (inserted p)).map (Item.of p)) ∧
    (∀ p, ∃ j ≤ inserted p, consumed.filter (·.producer = p) = (List.range j).map (Item.of p)) ∧
    (∀ a ∈ r.system.agents.toList, ∀ p, a.name? = some (.producer p) → a.isFaulty = false → a.inserts = inserted p) ∧
    ((produced.map fun i => (i.producer, i.sequence)).Nodup ∧ (consumed.map fun i => (i.producer, i.sequence)).Nodup) ∧
    (∀ e ∈ s.journal, e.kind ≠ .completed → e.item?.isSome = true) := by
  have hu := Underway.start hc hstart calls
  obtain ⟨hj, ho⟩ := Underway.exec_keepsOrder hc hkeep schedule hu (start_keepsOrder hc hstart calls) hexec
  have hring := (Underway.exec hc schedule hu hexec).sound.coherent.ring
  simp only [Nat.zero_add] at ho
  have hproduced := nodup_origins ho.items
  refine ⟨⟨hj.queue, hring.len_eq.symm⟩, ho.items, fun p => ?_, ho.places, ⟨hproduced, ?_⟩, hj.told⟩
  · have hitems := ho.items p
    rw [← hj.queue] at hitems
    exact inOrder_of_append hitems
  · rw [← hj.queue, List.map_append] at hproduced
    exact hproduced.of_append_left

/-- A ring of two cells has gone round once when a call from outside fails the run: one item was consumed, and one of
each producer is left. -/
theorem handed_over_in_order_amid_failure :
    let c : Config := { capacity := 2, producers := 2, itemsPerProducer := 2 }
    let schedule := List.replicate 5 none ++
      [3, 4, 1, 3, 3, 4, 4, 3, 1, 1, 1, 3, 3, 0].map some
    c.Fits ∧ c.journal = true ∧ ∃ r₀ r, Run.start c [] = .ok r₀ ∧ (r₀.withCalls 1).exec schedule = some r ∧
      (itemsOf .consumed r.system.monitor.state.journal, r.system.monitor.state.buffer.toList,
        r.system.monitor.state.failed) = ([.of 0 0], [.of 1 0, .of 0 1], true) ∧
      itemsOf .consumed r.system.monitor.state.journal ++ r.system.monitor.state.buffer.toList =
        itemsOf .produced r.system.monitor.state.journal ∧
      (itemsOf .produced r.system.monitor.state.journal).filter (·.producer = 0) =
        (List.range ((r₀.withCalls 1).insertions 0 schedule)).map (Item.of 0) := by
  intro c schedule
  have hc : c.Fits := ⟨by decide, by decide, by decide⟩
  obtain ⟨r₀, r, hstart, hexec, hseen⟩ := exists_exec c 1 schedule (b := ([.of 0 0], [.of 1 0, .of 0 1], true))
    (fun r => (itemsOf .consumed r.system.monitor.state.journal, r.system.monitor.state.buffer.toList,
      r.system.monitor.state.failed)) (by decide +kernel)
  have horder := handed_over_in_order hc rfl 1 schedule hstart hexec
  exact ⟨hc, rfl, r₀, r, hstart, hexec, hseen, horder.1.1, horder.2.1 0⟩

end Run
end Handover
