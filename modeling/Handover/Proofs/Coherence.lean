import Handover.Proofs.Turn
/-!
# Coherence — the guarded state agrees with itself

In every state between two critical sections the ring is sound, the counters differ by its length, the phase is a
function of the counters, and the completion latch is open exactly if the last item was consumed or the run failed
(`State.Coherent`).  Each effect keeps this.  `Config.Fits` collects what is asked of a configuration: it is a possible
one, and the values of its items and the numbers of its events fit in 64 bits.
-/
namespace Handover

/-- **A configuration of a run that stays in range.** -/
structure Config.Fits (c : Config) : Prop where
  valid : c.validate = .ok ()
  values : (c.producers - 1) * 100 + (c.itemsPerProducer - 1) < Word.limit
  events : 2 * c.totalItems + c.watchers < Word.limit

theorem Monitor.totalItems_eq {m : Monitor} {c : Config} (h : m.config = c) : m.totalItems = c.totalItems := by
  rw [Monitor.totalItems, h]

namespace Config.Fits

variable {c : Config}

theorem capacity_pos (h : c.Fits) : 0 < c.capacity := (validate_eq_ok.1 h.valid).1

theorem capacity_le (h : c.Fits) : c.capacity ≤ slotLimit := (validate_eq_ok.1 h.valid).2.1

theorem producers_pos (h : c.Fits) : 0 < c.producers := (validate_eq_ok.1 h.valid).2.2.1

theorem items_pos (h : c.Fits) : 0 < c.itemsPerProducer := (validate_eq_ok.1 h.valid).2.2.2.1

theorem watchers_pos (h : c.Fits) : 0 < c.watchers := (validate_eq_ok.1 h.valid).2.2.2.2.1

theorem total_eq (h : c.Fits) : c.totalItems = c.producers * c.itemsPerProducer := totalItems_of_validate h.valid

theorem total_pos (h : c.Fits) : 0 < c.totalItems := by
  rw [h.total_eq]
  exact Nat.mul_pos h.producers_pos h.items_pos

theorem value_lt (h : c.Fits) {id n : Nat} (hid : id < c.producers) (hn : n < c.itemsPerProducer) :
    Item.valueOf id n < Word.limit := by
  have := h.values
  unfold Item.valueOf
  omega

end Config.Fits

def Phase.reached (total produced consumed : Nat) : Phase :=
  if consumed = total then .complete else if produced = total then .draining else .running

namespace State

/-- **The guarded state agrees with itself.** -/
structure Coherent (c : Config) (s : State) : Prop where
  ring : s.buffer.Holds s.buffer.toList
  cells : s.buffer.capacity = c.capacity
  level : s.produced = s.consumed + s.buffer.len
  bound : s.produced ≤ c.totalItems
  phase : s.phase = Phase.reached c.totalItems s.produced s.consumed
  done : s.done = (decide (s.consumed = c.totalItems) || s.failed)
  keep : s.keepJournal = c.journal

namespace Coherent

variable {c : Config} {s : State}

theorem fresh (hc : c.Fits) : (State.fresh c).Coherent c := by
  have hpos := hc.total_pos
  have hring := Buffer.empty_holds (α := Item) hc.capacity_pos
  refine ⟨?_, by simp [State.fresh, Buffer.empty, Buffer.capacity], rfl, Nat.zero_le _, ?_, ?_, rfl⟩
  · exact (Buffer.toList_eq hring).symm ▸ hring
  · change Phase.running = Phase.reached c.totalItems 0 0
    rw [Phase.reached, if_neg (by omega), if_neg (by omega)]
  · change false = (decide (0 = c.totalItems) || false)
    rw [Bool.or_false, eq_comm, decide_eq_false_iff_not]
    omega

theorem len_le (h : s.Coherent c) : s.buffer.len ≤ c.capacity := by
  have := h.ring.fits
  rw [← h.cells, h.ring.len_eq]
  exact this

theorem consumed_le (h : s.Coherent c) : s.consumed ≤ c.totalItems := by
  have := h.level
  have := h.bound
  omega

/-- A run that is done was not failed and has consumed everything. -/
theorem consumed_eq_of_done (h : s.Coherent c) (hdone : s.done = true) (hf : s.failed = false) :
    s.consumed = c.totalItems := by
  have := h.done
  rw [hdone, hf, Bool.or_false] at this
  simpa using this.symm

theorem takesIn (h : s.Coherent c) (hc : c.Fits) (hroom : s.buffer.len < c.capacity)
    (hleft : s.produced < c.totalItems) (hevents : s.events + 1 < Word.limit) : s.TakesIn c.totalItems := by
  have hlevel := h.level
  have hfits := hc.events
  refine ⟨h.ring, by rw [h.cells]; exact hroom, by omega, hevents, fun _ => ?_⟩
  rw [h.phase, Phase.reached, if_neg (by omega), if_neg (by omega)]

theorem givesOut (h : s.Coherent c) (hc : c.Fits) (hitem : 0 < s.buffer.len) (hf : s.failed = false)
    (hevents : s.events + 1 < Word.limit) : s.GivesOut c.totalItems := by
  have hlevel := h.level
  have hbound := h.bound
  have hfits := hc.events
  refine ⟨h.ring, hitem, by omega, hevents, by omega, fun hlast => ⟨?_, ?_⟩⟩
  · rw [h.phase, Phase.reached, if_neg (by omega), if_pos (by omega)]
  · rw [h.done, hf, Bool.or_false, decide_eq_false_iff_not]
    omega

/-- **Handing in keeps the state coherent.** -/
theorem handedIn (h : s.Coherent c) {item : Item} {b : Buffer Item} (hb : s.buffer.insert item = .ok b)
    (hroom : s.buffer.len < c.capacity) (hleft : s.produced < c.totalItems) :
    (s.handedIn c.totalItems item b).Coherent c ∧ b.toList = s.buffer.toList ++ [item] := by
  have hlevel := h.level
  obtain ⟨b', hb', hring, hcells⟩ := Buffer.insert_ok h.ring (by rw [← h.ring.len_eq, h.cells]; exact hroom) item
  rw [hb] at hb'
  cases hb'
  have hlist := Buffer.toList_eq hring
  have hlen : b.len = s.buffer.len + 1 := by rw [hring.len_eq, h.ring.len_eq, List.length_append]; rfl
  refine ⟨⟨hlist.symm ▸ hring, hcells.trans h.cells, ?_, hleft, ?_, h.done, h.keep⟩, hlist⟩
  · change s.produced + 1 = s.consumed + b.len
    omega
  · change (if s.produced + 1 = c.totalItems then Phase.draining else s.phase) =
      Phase.reached c.totalItems (s.produced + 1) s.consumed
    have hcons : ¬ s.consumed = c.totalItems := by omega
    have hprod : ¬ s.produced = c.totalItems := by omega
    rw [h.phase]
    simp only [Phase.reached, if_neg hcons, if_neg hprod]

/-- **Taking out keeps the state coherent.** -/
theorem takenOut (h : s.Coherent c) {item : Item} {b : Buffer Item} (hb : s.buffer.remove = .ok (item, b))
    (hitem : 0 < s.buffer.len) :
    (s.takenOut c.totalItems item b).Coherent c ∧ s.buffer.toList = item :: b.toList ∧
      s.buffer.len = b.len + 1 := by
  have hlevel := h.level
  have hbound := h.bound
  obtain ⟨x, q, hq⟩ := List.exists_cons_of_length_pos (by rw [← h.ring.len_eq]; exact hitem)
  obtain ⟨b', hb', hring, hcells⟩ := Buffer.remove_ok (hq ▸ h.ring)
  rw [hb] at hb'
  cases hb'
  have hlist := Buffer.toList_eq hring
  have hlen : s.buffer.len = b.len + 1 := by rw [hring.len_eq, h.ring.len_eq, hq]; rfl
  refine ⟨⟨hlist.symm ▸ hring, hcells.trans h.cells, ?_, hbound, ?_, ?_, h.keep⟩, hlist.symm ▸ hq, hlen⟩
  · change s.produced = s.consumed + 1 + b.len
    omega
  · change (if s.consumed + 1 = c.totalItems then Phase.complete else s.phase) =
      Phase.reached c.totalItems s.produced (s.consumed + 1)
    rw [h.phase]
    unfold Phase.reached
    by_cases hlast : s.consumed + 1 = c.totalItems
    · rw [if_pos hlast, if_pos hlast]
    · rw [if_neg hlast, if_neg hlast, if_neg (by omega)]
  · change (if s.consumed + 1 = c.totalItems then true else s.done) =
      (decide (s.consumed + 1 = c.totalItems) || s.failed)
    rw [h.done]
    have hnot : decide (s.consumed = c.totalItems) = false := by rw [decide_eq_false_iff_not]; omega
    by_cases hlast : s.consumed + 1 = c.totalItems
    · rw [if_pos hlast, decide_eq_true hlast, Bool.true_or]
    · rw [if_neg hlast, decide_eq_false hlast, hnot]

theorem announced (h : s.Coherent c) : s.announced.Coherent c :=
  ⟨h.ring, h.cells, h.level, h.bound, h.phase, h.done, h.keep⟩

theorem marked (h : s.Coherent c) : s.marked.Coherent c :=
  ⟨h.ring, h.cells, h.level, h.bound, h.phase, by simp [State.marked], h.keep⟩

end Coherent
end State
end Handover
