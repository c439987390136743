import Handover.Proofs.Ring
/-!
# Fifo — a ring of cells is a bounded queue

A ring is called in any order, and a call that meets a fault is skipped over.  `Call.serve` carries a call out in place,
one write after the other, so that what was written before a fault stays written; `Call.onQueue` is what a queue of at
most `n` elements does.  The two give the same answers for ever (`Follows.serve`).  Taking an item out empties the cell
before it looks whether there was an item, and it has no look at the length: it relies on the cell at `tail` being free
exactly when the ring is empty.
-/
namespace Handover
namespace Buffer

variable {α : Type}

/-- What is asked of a ring. -/
inductive Call (α : Type) where
  | insert (x : α)
  | remove
  deriving DecidableEq, Repr

/-- What a call answers: an item if one was taken out, or the fault that it met. -/
abbrev Answer (α : Type) := Except Fault (Option α)

/-- Puts an item in, one field after the other. -/
def insertInPlace (item : α) : EStateM Fault (Buffer α) Unit := do
  let b ← get
  if b.len = b.capacity then throw .bufferFull
  else match b.cells[b.head]? with
    | none => throw (.cellOutOfRange b.head b.capacity)
    | some (some _) => throw .cellTaken
    | some none =>
      modify fun b => { b with cells := b.cells.setIfInBounds b.head (some item) }
      modify fun b => { b with head := (b.head + 1) % b.capacity }
      modify fun b => { b with len := b.len + 1 }

/-- Takes the item out, one field after the other. -/
def removeInPlace : EStateM Fault (Buffer α) α := do
  let b ← get
  match b.cells[b.tail]? with
  | none => throw (.cellOutOfRange b.tail b.capacity)
  | some cell =>
    modify fun b => { b with cells := b.cells.setIfInBounds b.tail none }
    match cell with
    | none => throw .bufferEmpty
    | some item =>
      modify fun b => { b with tail := (b.tail + 1) % b.capacity }
      -- the length is looked at last, when the cell and the position have changed already
      if b.len = 0 then throw .lengthUnderflow
      else
        modify fun b => { b with len := b.len - 1 }
        return item

namespace Call

/-- **A call in place**: its answer, and the ring as it then is, after a fault as well. -/
def serve (b : Buffer α) : Call α → Answer α × Buffer α
  | insert x => match insertInPlace x b with
    | .ok _ b' => (.ok none, b')
    | .error f b' => (.error f, b')
  | remove => match removeInPlace b with
    | .ok x b' => (.ok (some x), b')
    | .error f b' => (.error f, b')

/-- The same call made with `insert` and `remove`, after a fault on the ring from before. -/
def apply (b : Buffer α) : Call α → Answer α × Buffer α
  | insert x => match b.insert x with
    | .ok b' => (.ok none, b')
    | .error f => (.error f, b)
  | remove => match b.remove with
    | .ok (x, b') => (.ok (some x), b')
    | .error f => (.error f, b)

/-- **What a queue of at most `n` elements does.** -/
def onQueue (n : Nat) (q : List α) : Call α → Answer α × List α
  | insert x => if q.length < n then (.ok none, q ++ [x]) else (.error .bufferFull, q)
  | remove => match q with
    | [] => (.error .bufferEmpty, [])
    | x :: rest => (.ok (some x), rest)

/-- One call after the other. -/
def answers {σ : Type} (step : σ → Call α → Answer α × σ) : σ → List (Call α) → List (Answer α) × σ
  | s, [] => ([], s)
  | s, c :: rest =>
    let (a, s') := step s c
    let (later, s'') := answers step s' rest
    (a :: later, s'')

end Call

/-- An item went in. -/
def Answer.isInsert : Answer α → Bool
  | .ok none => true
  | _ => false

/-- An item came out. -/
def Answer.isRemove : Answer α → Bool
  | .ok (some _) => true
  | _ => false

theorem countP_cons_toNat {β : Type} (p : β → Bool) (a : β) (l : List β) :
    (a :: l).countP p = (p a).toNat + l.countP p := by
  rw [List.countP_cons, Nat.add_comm]
  cases p a <;> rfl

theorem setIfInBounds_none {cells : Array (Option α)} {i : Nat} (h : cells[i]? = some none) :
    cells.setIfInBounds i none = cells := by
  refine Array.ext_getElem? fun j => ?_
  rw [Array.getElem?_setIfInBounds]
  by_cases hij : i = j
  · subst hij
    obtain ⟨hlt, -⟩ := Array.getElem?_eq_some_iff.1 h
    rw [if_pos rfl, if_pos hlt, h]
  · rw [if_neg hij]

theorem insertInPlace_eq (b : Buffer α) (x : α) : insertInPlace x b =
    match b.insert x with
    | .ok b' => .ok () b'
    | .error f => .error f b := by
  unfold insert
  change (ite _ _ _ : EStateM Fault (Buffer α) Unit) b = _
  by_cases hfull : b.len = b.capacity
  · rw [if_pos hfull, if_pos hfull]
    rfl
  rw [if_neg hfull, if_neg hfull]
  rcases b.cells[b.head]? with _ | _ | _
  · rfl
  · change EStateM.Result.ok () _ = EStateM.Result.ok () _
    simp [capacity]
  · rfl

/-- **Taking out in place leaves what `remove` leaves**, and after a fault the ring from before, as long as the length
is not zero where there is an item. -/
theorem removeInPlace_eq (b : Buffer α) (h : b.remove ≠ .error .lengthUnderflow) : removeInPlace b =
    match b.remove with
    | .ok (x, b') => .ok x b'
    | .error f => .error f b := by
  unfold remove at h ⊢
  unfold removeInPlace
  change (match b.cells[b.tail]? with | none => _ | some cell => _ : EStateM Fault (Buffer α) α) b = _
  rcases hcell : b.cells[b.tail]? with _ | _ | x
  · rfl
  · change EStateM.Result.error _ { b with cells := b.cells.setIfInBounds b.tail none } = EStateM.Result.error _ b
    rw [setIfInBounds_none hcell]
  · rw [hcell] at h
    by_cases hlen : b.len = 0
    · exact absurd (if_pos hlen) h
    change (ite _ _ _ : EStateM Fault (Buffer α) α) _ = _
    simp only [if_neg hlen]
    change EStateM.Result.ok _ _ = EStateM.Result.ok _ _
    simp [capacity]

theorem Call.serve_eq_apply {b : Buffer α} {c : Call α} (h : (c.apply b).1 ≠ .error .lengthUnderflow) :
    c.serve b = c.apply b := by
  cases c with
  | insert x =>
    simp only [serve, apply, insertInPlace_eq]
    cases b.insert x <;> rfl
  | remove =>
    have hplace := removeInPlace_eq b fun hunder => h (by rw [apply, hunder])
    simp only [serve, apply, hplace]
    rcases b.remove with _ | ⟨_, _⟩ <;> rfl

/-- The only faults of a queue are that it is full and that it is empty. -/
theorem Call.onQueue_error {n : Nat} {q : List α} {c : Call α} {f : Fault} (h : (c.onQueue n q).1 = .error f) :
    ((∃ x, c = .insert x) ∧ n ≤ q.length ∧ f = .bufferFull) ∨ (c = .remove ∧ q = [] ∧ f = .bufferEmpty) := by
  cases c with
  | insert x =>
    by_cases hroom : q.length < n
    · rw [onQueue, if_pos hroom] at h
      cases h
    · rw [onQueue, if_neg hroom] at h
      cases h
      exact .inl ⟨⟨x, rfl⟩, by omega, rfl⟩
  | remove =>
    cases q with
    | nil =>
      cases h
      exact .inr ⟨rfl, rfl, rfl⟩
    | cons x q => cases h

theorem Call.onQueue_insert_eq_ok {n : Nat} {q : List α} {x : α} :
    ((Call.insert x).onQueue n q).1 = .ok none ↔ q.length < n := by
  unfold onQueue
  by_cases hroom : q.length < n <;> simp [hroom]

theorem Call.onQueue_remove_eq_ok {n : Nat} {q : List α} {x : α} :
    (Call.remove.onQueue n q).1 = .ok (some x) ↔ q.head? = some x := by
  cases q <;> simp [onQueue]

theorem tail_insert {b b' : Buffer α} {x : α} (h : b.insert x = .ok b') : b'.tail = b.tail := by
  unfold insert at h
  split at h
  · cases h
  split at h <;> cases h
  rfl

theorem tail_remove {b b' : Buffer α} {x : α} (h : b.remove = .ok (x, b')) : b'.tail = (b.tail + 1) % b.capacity := by
  unfold remove at h
  split at h
  · cases h
  · cases h
  split at h <;> cases h
  rfl

theorem insert_full {b : Buffer α} {q : List α} (h : b.Holds q) (hfull : q.length = b.capacity) (x : α) :
    b.insert x = .error .bufferFull := by
  unfold insert
  rw [if_pos (h.len_eq.trans hfull)]

/-- **The cell at `tail` of an empty ring is free**, which is all that taking out looks at. -/
theorem remove_empty {b : Buffer α} (h : b.Holds []) : b.remove = .error .bufferEmpty := by
  have hcell := h.cell 0 h.pos
  rw [Nat.add_zero, Nat.mod_eq_of_lt h.tail_lt] at hcell
  unfold remove
  rw [hcell]
  rfl

/-- **The ring follows a queue** of at most `n` elements: it shows the queue, and its positions tell how many items went
in and came out. -/
structure Follows (n : Nat) (q : List α) (inserted removed : Nat) (b : Buffer α) : Prop where
  holds : b.Holds q
  capacity : b.capacity = n
  tail : b.tail = removed % n
  balance : inserted = removed + q.length

namespace Follows

variable {n inserted removed : Nat} {q : List α} {b : Buffer α}

theorem start (hn : 0 < n) : (empty n : Buffer α).Follows n [] 0 0 :=
  ⟨empty_holds hn, by simp [Buffer.capacity, empty], rfl, rfl⟩

theorem head (h : b.Follows n q inserted removed) : b.head = inserted % n := by
  rw [h.holds.head_eq, h.capacity, h.tail, Nat.mod_add_mod, h.balance]

theorem len (h : b.Follows n q inserted removed) : b.len = inserted - removed := by
  rw [h.holds.len_eq, h.balance, Nat.add_sub_cancel_left]

/-- The cells with an item are those from `tail` on, as many as there are items. -/
theorem taken_iff (h : b.Follows n q inserted removed) {j : Nat} (hj : j < n) :
    (∃ x, b.cells[j]? = some (some x)) ↔ ∃ i < b.len, j = (b.tail + i) % n := by
  have hcell := h.holds.cell
  have hlt := h.holds.tail_lt
  have hfits := h.holds.fits
  rw [h.capacity] at hcell hlt hfits
  rw [h.holds.len_eq]
  constructor
  · rintro ⟨x, hx⟩
    -- every cell is some number of places after `tail`, less than a whole turn
    obtain ⟨i, hi, rfl⟩ : ∃ i < n, j = (b.tail + i) % n := by
      by_cases hle : b.tail ≤ j
      · exact ⟨j - b.tail, by omega, by rw [Nat.add_sub_of_le hle, Nat.mod_eq_of_lt hj]⟩
      · exact ⟨j + n - b.tail, by omega, by
          rw [Nat.add_sub_of_le (by omega), Nat.add_mod_right, Nat.mod_eq_of_lt hj]⟩
    rw [hcell i hi, Option.some.injEq] at hx
    exact ⟨i, (List.getElem?_eq_some_iff.1 hx).1, rfl⟩
  · rintro ⟨i, hi, rfl⟩
    exact ⟨q[i], by rw [hcell i (by omega), List.getElem?_eq_getElem hi]⟩

/-- **A call on a ring is a call on its queue**, and one that meets a fault changes nothing. -/
theorem apply (h : b.Follows n q inserted removed) (c : Call α) :
    ∃ b', c.apply b = ((c.onQueue n q).1, b') ∧
      b'.Follows n (c.onQueue n q).2 (inserted + (c.onQueue n q).1.isInsert.toNat)
        (removed + (c.onQueue n q).1.isRemove.toNat) ∧
      ∀ f, (c.onQueue n q).1 = .error f → b' = b := by
  have hfits := h.holds.fits
  cases c with
  | insert x =>
    by_cases hroom : q.length < n
    · obtain ⟨b', hok, hholds, hcapacity⟩ := insert_ok h.holds (by rw [h.capacity]; exact hroom) x
      have hqueue : (Call.insert x).onQueue n q = (.ok none, q ++ [x]) := if_pos hroom
      rw [hqueue]
      refine ⟨b', by rw [Call.apply, hok], ⟨hholds, hcapacity.trans h.capacity, ?_, ?_⟩, nofun⟩
      · exact (tail_insert hok).trans h.tail
      · rw [h.balance, List.length_append, Nat.add_assoc]
        rfl
    · have hqueue : (Call.insert x).onQueue n q = (.error .bufferFull, q) := if_neg hroom
      have hfull := insert_full h.holds (by rw [h.capacity] at hfits ⊢; omega) x
      rw [hqueue]
      exact ⟨b, by rw [Call.apply, hfull], h, fun _ _ => rfl⟩
  | remove =>
    cases q with
    | nil => exact ⟨b, by rw [Call.apply, remove_empty h.holds]; rfl, h, fun _ _ => rfl⟩
    | cons x q =>
      obtain ⟨b', hok, hholds, hcapacity⟩ := remove_ok h.holds
      refine ⟨b', by rw [Call.apply, hok]; rfl, ⟨hholds, hcapacity.trans h.capacity, ?_, ?_⟩, nofun⟩
      · rw [tail_remove hok, h.capacity, h.tail, Nat.mod_add_mod]
        rfl
      · rw [h.balance, List.length_cons]
        change removed + (q.length + 1) = removed + 1 + q.length
        omega

theorem serve_eq (h : b.Follows n q inserted removed) (c : Call α) : c.serve b = c.apply b := by
  obtain ⟨b', happly, -, -⟩ := h.apply c
  refine Call.serve_eq_apply fun hunder => ?_
  rw [happly] at hunder
  rcases Call.onQueue_error hunder with ⟨-, -, hf⟩ | ⟨-, -, hf⟩ <;> cases hf

theorem serve (h : b.Follows n q inserted removed) (c : Call α) :
    (c.serve b).1 = (c.onQueue n q).1 ∧ ∀ f, (c.serve b).1 = .error f → (c.serve b).2 = b := by
  obtain ⟨b', happly, -, hsame⟩ := h.apply c
  rw [h.serve_eq c, happly]
  exact ⟨rfl, hsame⟩

/-- **Any calls on a ring are calls on its queue.** -/
theorem answers : ∀ (calls : List (Call α)) {q : List α} {inserted removed : Nat} {b : Buffer α},
    b.Follows n q inserted removed →
      Call.answers Call.serve b calls = Call.answers Call.apply b calls ∧
      (Call.answers Call.serve b calls).1 = (Call.answers (Call.onQueue n) q calls).1 ∧
      (Call.answers Call.serve b calls).2.Follows n (Call.answers (Call.onQueue n) q calls).2
        (inserted + (Call.answers (Call.onQueue n) q calls).1.countP Answer.isInsert)
        (removed + (Call.answers (Call.onQueue n) q calls).1.countP Answer.isRemove)
  | [], q, inserted, removed, b, h => ⟨rfl, rfl, h⟩
  | c :: rest, q, inserted, removed, b, h => by
    obtain ⟨b', happly, hnext, -⟩ := h.apply c
    obtain ⟨hsame, hanswers, hlast⟩ := answers rest hnext
    have hserve : c.serve b = _ := (h.serve_eq c).trans happly
    simp only [Call.answers, hserve, happly, countP_cons_toNat, ← Nat.add_assoc]
    exact ⟨by rw [hsame], by rw [hanswers], hlast⟩

end Follows

/-- **A ring is a bounded queue.**  Make any calls on a new ring of `n` cells, in place, and go on after a fault with
the ring as it was left.  The answers are those of a queue of at most `n` elements, and they would be the same with
`insert` and `remove`.  The ring shows the queue: its positions are the numbers of items that went in and came out,
modulo `n`, and the cells that hold an item are those from `tail` on, in the order of the queue.  The next item is taken
exactly if there is room, the next item given is the oldest, and a call that meets a fault, of which there are two,
changes no field. -/
theorem ring_is_a_bounded_queue {n : Nat} (hn : 0 < n) (calls : List (Call α)) :
    ∃ b₀ : Buffer α, new n = .ok b₀ ∧
      let answers := (Call.answers Call.serve b₀ calls).1
      let b := (Call.answers Call.serve b₀ calls).2
      let queue := (Call.answers (Call.onQueue n) [] calls).2
      let inserted := answers.countP Answer.isInsert
      let removed := answers.countP Answer.isRemove
      (Call.answers Call.apply b₀ calls = (answers, b) ∧ answers = (Call.answers (Call.onQueue n) [] calls).1) ∧
      (queue.length ≤ n ∧ b.toList = queue) ∧
      (b.capacity = n ∧ b.head = inserted % n ∧ b.tail = removed % n ∧ removed ≤ inserted ∧
        b.len = inserted - removed) ∧
      ((∀ i < n, b.cells[(b.tail + i) % n]? = some queue[i]?) ∧
        ∀ j < n, (∃ x, b.cells[j]? = some (some x)) ↔ ∃ i < b.len, j = (b.tail + i) % n) ∧
      (∀ x, (Call.serve b (.insert x)).1 = .ok none ↔ b.len < n) ∧
      (∀ x, (Call.serve b .remove).1 = .ok (some x) ↔ queue.head? = some x) ∧
      ∀ c f, (Call.serve b c).1 = .error f → (Call.serve b c).2 = b ∧
        (((∃ x, c = .insert x) ∧ b.len = n ∧ f.message = "insert into a full buffer") ∨
          (c = .remove ∧ b.len = 0 ∧ f.message = "remove from an empty buffer")) := by
  refine ⟨empty n, if_neg (by omega), ?_⟩
  obtain ⟨hsame, hanswers, h⟩ := (Follows.start hn).answers calls
  simp only [Nat.zero_add, ← hanswers] at h
  have hfits := h.holds.fits
  have hcell := h.holds.cell
  have hlen := h.holds.len_eq
  have hbalance := h.balance
  rw [h.capacity] at hfits hcell
  refine ⟨⟨hsame.symm, hanswers⟩, ⟨hfits, toList_eq h.holds⟩, ⟨h.capacity, h.head, h.tail, by omega, h.len⟩,
    ⟨hcell, fun j => h.taken_iff⟩, fun x => ?_, fun x => ?_, fun c f hfault => ?_⟩
  · rw [(h.serve _).1, Call.onQueue_insert_eq_ok, hlen]
  · rw [(h.serve _).1, Call.onQueue_remove_eq_ok]
  · obtain ⟨hserve, hkept⟩ := h.serve c
    refine ⟨hkept f hfault, ?_⟩
    rw [hserve] at hfault
    rcases Call.onQueue_error hfault with ⟨hc, hfull, rfl⟩ | ⟨hc, hnone, rfl⟩
    · exact .inl ⟨hc, by omega, rfl⟩
    · exact .inr ⟨hc, by rw [hlen, hnone]; rfl, rfl⟩

/-- Two cells: a call on the empty ring, one on the full ring, and items that go round; the ring ends up full, with its
oldest item in the last cell. -/
theorem ring_is_a_bounded_queue_wrapped :
    let calls : List (Call Nat) :=
      [.remove, .insert 10, .insert 11, .insert 12, .remove, .insert 13, .remove, .remove, .remove, .insert 14,
        .insert 15]
    0 < 2 ∧ ∃ b₀ : Buffer Nat, new 2 = .ok b₀ ∧
      (Call.answers Call.serve b₀ calls).1 =
        [.error .bufferEmpty, .ok none, .ok none, .error .bufferFull, .ok (some 10), .ok none, .ok (some 11),
          .ok (some 13), .error .bufferEmpty, .ok none, .ok none] ∧
      (Call.answers Call.serve b₀ calls).2 = ⟨#[some 15, some 14], 1, 1, 2⟩ ∧
      (Call.answers Call.serve b₀ calls).2.toList = [14, 15] ∧
      (Call.serve (Call.answers Call.serve b₀ calls).2 (.insert 16)).2 = (Call.answers Call.serve b₀ calls).2 := by
  intro calls
  have hn : 0 < 2 := by decide
  obtain ⟨b₀, hnew, ⟨-, hanswers⟩, ⟨-, hlist⟩, -, -, -, -, hfault⟩ := ring_is_a_bounded_queue hn calls
  cases hnew
  exact ⟨hn, _, rfl, hanswers, by decide, hlist, (hfault (.insert 16) .bufferFull (by decide)).1⟩

end Buffer
end Handover
