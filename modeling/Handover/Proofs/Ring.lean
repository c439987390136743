import Handover.Buffer
import Mathlib.Data.List.Basic
import Mathlib.Data.Nat.ModEq
/-!
# Ring — a ring of cells holds a queue

`Buffer.Holds b q` says that the ring `b` is a picture of the queue `q`: the cell `i` places after `tail` shows the
`i`-th element of `q`, and nothing from the end of `q` on.  This fixes `head` and `len` too.  A ring with room takes an
item at the end of its queue (`insert_ok`), a ring with an item gives the first one of its queue (`remove_ok`), and the
list that is read off a ring is its queue (`toList_eq`).
-/
namespace Handover
namespace Buffer

variable {α : Type}

/-- **The ring shows this queue**, oldest element at `tail`. -/
structure Holds (b : Buffer α) (q : List α) : Prop where
  pos : 0 < b.capacity
  fits : q.length ≤ b.capacity
  tail_lt : b.tail < b.capacity
  head_eq : b.head = (b.tail + q.length) % b.capacity
  len_eq : b.len = q.length
  cell : ∀ i < b.capacity, b.cells[(b.tail + i) % b.capacity]? = some q[i]?

/-- Two places less than a whole turn after the same cell are the same cell only if they are the same place. -/
theorem offset_inj {t n i j : Nat} (hi : i < n) (hj : j < n) (h : (t + i) % n = (t + j) % n) : i = j := by
  have hmod : i ≡ j [MOD n] := Nat.ModEq.add_left_cancel' t h
  exact Nat.ModEq.eq_of_lt_of_lt hmod hi hj

theorem getElem?_set_offset (b : Buffer α) {i j : Nat} (hi : i < b.capacity) (hj : j < b.capacity) (x : Option α) :
    (b.cells.setIfInBounds ((b.tail + j) % b.capacity) x)[(b.tail + i) % b.capacity]? =
      if i = j then some x else b.cells[(b.tail + i) % b.capacity]? := by
  have hlt : (b.tail + j) % b.capacity < b.cells.size := Nat.mod_lt _ (by omega)
  rw [Array.getElem?_setIfInBounds]
  by_cases hij : i = j
  · subst hij
    rw [if_pos rfl, if_pos hlt, if_pos rfl]
  · rw [if_neg (fun h => hij (offset_inj hi hj h.symm)), if_neg hij]

theorem Holds.ofParts {cells : Array (Option α)} {head tail len n : Nat} {q : List α} (hsize : cells.size = n)
    (pos : 0 < n) (fits : q.length ≤ n) (tail_lt : tail < n) (head_eq : head = (tail + q.length) % n)
    (len_eq : len = q.length) (cell : ∀ i < n, cells[(tail + i) % n]? = some q[i]?) :
    Holds ⟨cells, head, tail, len⟩ q := by
  subst hsize
  exact ⟨pos, fits, tail_lt, head_eq, len_eq, cell⟩

theorem empty_holds {n : Nat} (hn : 0 < n) : (empty n : Buffer α).Holds [] := by
  refine .ofParts (n := n) (by simp) hn (Nat.zero_le _) hn (by simp) rfl fun i _ => ?_
  rw [Array.getElem?_replicate, if_pos (Nat.mod_lt _ hn)]
  rfl

/-- **A ring with room takes an item**, which goes to the end of its queue. -/
theorem insert_ok {b : Buffer α} {q : List α} (h : b.Holds q) (hroom : q.length < b.capacity) (x : α) :
    ∃ b', b.insert x = .ok b' ∧ b'.Holds (q ++ [x]) ∧ b'.capacity = b.capacity := by
  have hcell : b.cells[b.head]? = some none := by
    rw [h.head_eq, h.cell _ hroom, List.getElem?_eq_none (Nat.le_refl _)]
  have hlen : b.len ≠ b.capacity := by rw [h.len_eq]; omega
  have hlength : (q ++ [x]).length = q.length + 1 := by simp
  refine ⟨_, by rw [insert, if_neg hlen, hcell], ?_, by simp [capacity]⟩
  refine .ofParts (n := b.capacity) (by simp [capacity]) h.pos (by omega) h.tail_lt ?_ (by rw [h.len_eq, hlength]) ?_
  · rw [h.head_eq, hlength, Nat.mod_add_mod, Nat.add_assoc]
  · intro i hi
    rw [h.head_eq, getElem?_set_offset b hi hroom, h.cell i hi]
    by_cases hiq : i = q.length
    · subst hiq; simp
    · rw [if_neg hiq, List.getElem?_append]
      by_cases hlt : i < q.length
      · rw [if_pos hlt]
      · rw [if_neg hlt, List.getElem?_eq_none (by omega), List.getElem?_eq_none (by simp; omega)]

/-- **A ring with an item gives the oldest one**, which leaves the front of its queue. -/
theorem remove_ok {b : Buffer α} {x : α} {q : List α} (h : b.Holds (x :: q)) :
    ∃ b', b.remove = .ok (x, b') ∧ b'.Holds q ∧ b'.capacity = b.capacity := by
  have hpos := h.pos
  have hfits : q.length + 1 ≤ b.capacity := h.fits
  have htail : (b.tail + 0) % b.capacity = b.tail := Nat.mod_eq_of_lt h.tail_lt
  have hcell : b.cells[b.tail]? = some (some x) := by
    have h0 := h.cell 0 hpos
    rwa [htail] at h0
  have hlen : b.len ≠ 0 := by rw [h.len_eq]; simp
  refine ⟨_, by rw [remove, hcell]; simp only; rw [if_neg hlen], ?_, by simp [capacity]⟩
  refine .ofParts (n := b.capacity) (by simp [capacity]) hpos (by omega) (Nat.mod_lt _ hpos) ?_
    (by rw [h.len_eq]; rfl) ?_
  · rw [h.head_eq, Nat.mod_add_mod, List.length_cons]
    congr 1; omega
  · intro i hi
    rw [Nat.mod_add_mod, Nat.add_assoc, Nat.add_comm 1 i]
    by_cases hlast : i + 1 = b.capacity
    · -- the cell that was just emptied comes last in the new circle
      have hset := getElem?_set_offset b hpos hpos (none : Option α)
      rw [if_pos rfl, htail] at hset
      rw [hlast, Nat.add_mod_right, Nat.mod_eq_of_lt h.tail_lt, hset, List.getElem?_eq_none (by omega)]
    · have hi' : i + 1 < b.capacity := by omega
      have hset := getElem?_set_offset b hi' hpos (none : Option α)
      rw [if_neg (by omega), h.cell _ hi', htail] at hset
      rw [hset, List.getElem?_cons_succ]

theorem len_insert {b b' : Buffer α} {x : α} (h : b.insert x = .ok b') : b'.len = b.len + 1 := by
  unfold insert at h
  split at h
  · cases h
  split at h <;> cases h
  rfl

theorem len_remove {b b' : Buffer α} {x : α} (h : b.remove = .ok (x, b')) : b'.len + 1 = b.len := by
  unfold remove at h
  split at h
  · cases h
  · cases h
  split at h
  · cases h
  rename_i hlen
  cases h
  change b.len - 1 + 1 = b.len
  omega

theorem filterMap_range_getElem? (q : List α) : (List.range q.length).filterMap (fun i => q[i]?) = q := by
  induction q with
  | nil => rfl
  | cons x q ih =>
    rw [List.length_cons, List.range_succ_eq_map, List.filterMap_cons, List.filterMap_map]
    simp only [List.getElem?_cons_zero, Function.comp_def, Nat.succ_eq_add_one, List.getElem?_cons_succ]
    rw [ih]

/-- **What is read off a ring is the queue it shows.** -/
theorem toList_eq {b : Buffer α} {q : List α} (h : b.Holds q) : b.toList = q := by
  have hread : ∀ i ∈ List.range q.length, (b.cells[(b.tail + i) % b.capacity]?).join = q[i]? := by
    intro i hi
    rw [h.cell i (Nat.lt_of_lt_of_le (List.mem_range.1 hi) h.fits)]
    rfl
  unfold toList
  rw [h.len_eq, List.filterMap_congr hread, filterMap_range_getElem?]

end Buffer
end Handover
