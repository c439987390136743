import Handover.Audit
import Handover.Proofs.Journal
import Mathlib.Data.List.Dedup
/-!
# Ledger — what a pass over a journal has checked

The ledger keeps counters, the origins that were produced and not consumed, and one number for each producer.  After a
prefix of the journal each of these is a function of the prefix (`Ledger.Reflects`), so what `enter` checks about the
ledger is a condition on the prefix and the event (`Event.Admitted`).  A journal passes exactly if every event is
admitted after those before it, some event tells of the end, and the total is as expected (`check_eq_ok`).
-/
namespace Handover

open Audit (Origin Failure Ledger Summary)

def Item.origin (i : Item) : Origin := ⟨i.producer, i.sequence⟩

/-- The origins of the items that the events of one kind are about, in their order. -/
def originsOf (kind : Kind) (journal : List Event) : List Origin := (itemsOf kind journal).map Item.origin

/-- The places of the producer's items among the items that it made, in the order in which they were consumed. -/
def placesOf (producer : Nat) (journal : List Event) : List Nat :=
  ((originsOf .consumed journal).filter (·.producer = producer)).map Origin.sequence

/-- The origin was produced more often than it was consumed. -/
def Pending (journal : List Event) (o : Origin) : Prop :=
  (originsOf .consumed journal).count o < (originsOf .produced journal).count o

def peakOf (journal : List Event) : Nat := journal.foldl (fun peak e => max peak e.occupancy) 0

/-- The event is about the item with this origin, and its value says so. -/
def Event.Tells (e : Event) (o : Origin) : Prop :=
  e.producer = some o.producer ∧ e.sequence = some o.sequence ∧ e.value = some (Item.valueOf o.producer o.sequence)

theorem originsOf_append (kind : Kind) (j₁ j₂ : List Event) :
    originsOf kind (j₁ ++ j₂) = originsOf kind j₁ ++ originsOf kind j₂ := by
  unfold originsOf
  rw [itemsOf_append, List.map_append]

theorem originsOf_singleton {kind : Kind} {e : Event} {o : Origin} (hk : e.kind = kind) (h : e.Tells o) :
    originsOf kind [e] = [o] := by
  obtain ⟨hp, hs, hv⟩ := h
  simp [originsOf, itemsOf, hk, Event.item?, hp, hs, hv, Item.origin]

theorem originsOf_other {kind : Kind} {e : Event} (hk : e.kind ≠ kind) : originsOf kind [e] = [] := by
  simp [originsOf, itemsOf, hk]

theorem placesOf_append (p : Nat) (j₁ j₂ : List Event) : placesOf p (j₁ ++ j₂) = placesOf p j₁ ++ placesOf p j₂ := by
  unfold placesOf
  rw [originsOf_append, List.filter_append, List.map_append]

theorem placesOf_singleton {e : Event} {o : Origin} (hk : e.kind = .consumed) (h : e.Tells o) (p : Nat) :
    placesOf p [e] = if o.producer = p then [o.sequence] else [] := by
  unfold placesOf
  rw [originsOf_singleton hk h]
  by_cases hp : o.producer = p <;> simp [hp]

theorem placesOf_other {e : Event} (hk : e.kind ≠ .consumed) (p : Nat) : placesOf p [e] = [] := by
  unfold placesOf
  rw [originsOf_other hk]
  rfl

theorem peakOf_append_singleton (journal : List Event) (e : Event) :
    peakOf (journal ++ [e]) = max (peakOf journal) e.occupancy := by
  simp [peakOf]

/-- The number, the counters and the occupancy of an event agree. -/
structure Event.Adds (capacity : Option Nat) (index : Nat) (e : Event) : Prop where
  seq : e.seq = index
  le : e.consumed ≤ e.produced
  occupancy : e.occupancy = e.produced - e.consumed
  room : ∀ n ∈ capacity, e.occupancy ≤ n

theorem Event.adds_iff {capacity : Option Nat} {index : Nat} {e : Event} : e.Adds capacity index ↔ e.seq = index ∧
    e.consumed ≤ e.produced ∧ e.produced - e.consumed = e.occupancy ∧ ∀ n ∈ capacity, e.occupancy ≤ n :=
  ⟨fun h => ⟨h.seq, h.le, h.occupancy.symm, h.room⟩, fun ⟨h₁, h₂, h₃, h₄⟩ => ⟨h₁, h₂, h₃.symm, h₄⟩⟩

/-- **An event that may come after others.** -/
structure Event.Admitted (capacity : Option Nat) (before : List Event) (e : Event) : Prop where
  adds : e.Adds capacity before.length
  unfinished : e.kind ≠ .completed → countOf .completed before = 0
  counted : e.kind ≠ .completed →
    e.produced = countOf .produced (before ++ [e]) ∧ e.consumed = countOf .consumed (before ++ [e])
  put : e.kind = .produced → ∃ o, e.Tells o ∧ ¬ Pending before o
  taken : e.kind = .consumed → ∃ o, e.Tells o ∧ Pending before o ∧ o.sequence = (placesOf o.producer before).length
  closing : e.kind = .completed → e.consumed = countOf .produced before ∧ ∀ o, ¬ Pending before o

namespace Audit

/-! ## What the checks say -/

theorem bind_eq_ok {α β : Type} {x : Except Failure α} {f : α → Except Failure β} {b : β} :
    (x >>= f) = .ok b ↔ ∃ a, x = .ok a ∧ f a = .ok b := by
  cases x <;> simp [bind, Except.bind]

theorem counted_eq_ok {x : Except Fault Nat} {n : Nat} : counted x = .ok n ↔ x = .ok n := by
  cases x <;> simp [counted, Except.mapError]

theorem counted_sub {m n : Nat} (h : n ≤ m) : counted (Word.sub m n) = .ok (m - n) :=
  counted_eq_ok.2 (Word.sub_eq_ok.2 ⟨h, rfl⟩)

/-- A value that tells its origin is the exact one, and fits in 64 bits. -/
theorem originOf_eq_ok {index : Nat} {e : Event} {o : Origin} :
    originOf index e = .ok o ↔ e.Tells o ∧ Item.valueOf o.producer o.sequence < Word.limit := by
  unfold originOf Event.Tells
  split
  · rename_i p s v hp hs hv
    simp only [bind_eq_ok, counted_eq_ok, Item.checkedValue_eq_ok, ensure_eq_ok, decide_eq_true_eq, pure, Except.pure,
      Except.ok.injEq, exists_const, hp, hs, hv, Option.some.injEq]
    constructor
    · rintro ⟨_, ⟨hfits, rfl⟩, rfl, rfl⟩
      exact ⟨⟨rfl, rfl, rfl⟩, hfits⟩
    · rintro ⟨⟨rfl, rfl, rfl⟩, hfits⟩
      exact ⟨_, ⟨hfits, rfl⟩, rfl, rfl⟩
  · rename_i hnone
    constructor
    · intro h
      cases h
    · rintro ⟨⟨hp, hs, hv⟩, -⟩
      exact absurd hv (hnone _ _ _ hp hs)

theorem value_fits {e : Event} {o : Origin} (hvalue : ∀ v ∈ e.value, v < Word.limit) (ho : e.Tells o) :
    Item.valueOf o.producer o.sequence < Word.limit :=
  hvalue _ ho.2.2

namespace Ledger

variable {capacity total : Option Nat} {l l' : Ledger} {before rest : List Event} {e : Event} {index : Nat}

theorem enterProduced_eq_ok : l.enterProduced index e = .ok l' ↔ l.produced + 1 < Word.limit ∧
    (e.produced = l.produced + 1 ∧ e.consumed = l.consumed) ∧
      ∃ o, (e.Tells o ∧ Item.valueOf o.producer o.sequence < Word.limit) ∧ o ∉ l.pending ∧
        l' = { l with produced := e.produced, pending := o :: l.pending } := by
  unfold enterProduced
  simp only [bind_eq_ok, counted_eq_ok, Word.add_eq_ok, ensure_eq_ok, originOf_eq_ok, Bool.and_eq_true,
    decide_eq_true_eq, Bool.not_eq_true', List.contains_eq_mem, decide_eq_false_iff_not, pure, Except.pure,
    Except.ok.injEq, exists_const]
  constructor
  · rintro ⟨_, ⟨hroom, rfl⟩, hcount, o, ho, hnew, rfl⟩
    exact ⟨hroom, hcount, o, ho, hnew, rfl⟩
  · rintro ⟨hroom, hcount, o, ho, hnew, rfl⟩
    exact ⟨_, ⟨hroom, rfl⟩, hcount, o, ho, hnew, rfl⟩

theorem enterConsumed_eq_ok : l.enterConsumed index e = .ok l' ↔ l.consumed + 1 < Word.limit ∧
    (e.consumed = l.consumed + 1 ∧ e.produced = l.produced) ∧
      ∃ o, (e.Tells o ∧ Item.valueOf o.producer o.sequence < Word.limit) ∧ o ∈ l.pending ∧
        o.sequence = l.nextOf o.producer ∧ o.sequence + 1 < Word.limit ∧
        l' = { l with
          consumed := e.consumed
          pending := l.pending.erase o
          next := l.setNext o.producer (o.sequence + 1) } := by
  unfold enterConsumed
  simp only [bind_eq_ok, counted_eq_ok, Word.add_eq_ok, ensure_eq_ok, originOf_eq_ok, Bool.and_eq_true,
    decide_eq_true_eq, List.contains_eq_mem, pure, Except.pure, Except.ok.injEq, exists_const]
  constructor
  · rintro ⟨_, ⟨hroom, rfl⟩, hcount, o, ho, hmem, hseq, _, ⟨hnext, rfl⟩, rfl⟩
    exact ⟨hroom, hcount, o, ho, hmem, hseq, hnext, rfl⟩
  · rintro ⟨hroom, hcount, o, ho, hmem, hseq, hnext, rfl⟩
    exact ⟨_, ⟨hroom, rfl⟩, hcount, o, ho, hmem, hseq, _, ⟨hnext, rfl⟩, rfl⟩

theorem enterCompleted_eq_ok : l.enterCompleted index e = .ok l' ↔ l.completions + 1 < Word.limit ∧
    e.consumed = l.produced ∧ l.pending = [] ∧ l' = { l with completions := l.completions + 1 } := by
  unfold enterCompleted
  simp only [bind_eq_ok, counted_eq_ok, Word.add_eq_ok, ensure_eq_ok, Bool.and_eq_true, decide_eq_true_eq,
    List.isEmpty_iff, pure, Except.pure, Except.ok.injEq, exists_const]
  constructor
  · rintro ⟨⟨hcount, hnone⟩, _, ⟨hroom, rfl⟩, rfl⟩
    exact ⟨hroom, hcount, hnone, rfl⟩
  · rintro ⟨hroom, hcount, hnone, rfl⟩
    exact ⟨⟨hcount, hnone⟩, _, ⟨hroom, rfl⟩, rfl⟩

/-- What every event has to pass comes first, then what its kind asks. -/
theorem enter_eq_ok : l.enter capacity index e = .ok l' ↔ e.Adds capacity index ∧
    match e.kind with
    | .produced => l.completions = 0 ∧
      ({ l with peak := max l.peak e.occupancy } : Ledger).enterProduced index e = .ok l'
    | .consumed => l.completions = 0 ∧
      ({ l with peak := max l.peak e.occupancy } : Ledger).enterConsumed index e = .ok l'
    | .completed => ({ l with peak := max l.peak e.occupancy } : Ledger).enterCompleted index e = .ok l' := by
  rw [Event.adds_iff]
  unfold enter
  cases capacity with
  | none => cases e.kind <;> simp +contextual [bind_eq_ok, and_assoc, counted_sub]
  | some n => cases e.kind <;> simp +contextual [bind_eq_ok, and_assoc, counted_sub]

theorem close_eq_ok {s : Summary} : l.close total = .ok s ↔ 0 < l.completions ∧ (∀ n ∈ total, l.consumed = n) ∧
    s = ⟨l.produced, l.consumed, l.completions, l.next.length, l.peak⟩ := by
  unfold close
  cases total with
  | none =>
    by_cases h : l.completions = 0 <;> simp [h, bind, Except.bind, pure, Except.pure, eq_comm]
    omega
  | some n =>
    by_cases h : l.completions = 0
    · simp [h, bind, Except.bind]
    · by_cases hn : l.consumed = n <;> simp [h, hn, bind, Except.bind, pure, Except.pure, eq_comm]
      · omega
      · exact fun _ hn' => absurd hn'.symm hn

/-! ## What the ledger knows -/

theorem lookup_filter_ne (p q : Nat) (hpq : p ≠ q) : ∀ next : List (Nat × Nat),
    (next.filter (·.1 ≠ q)).lookup p = next.lookup p
  | [] => rfl
  | (x, n) :: next => by
    by_cases hx : x = q
    · subst hx
      have hbeq : (p == x) = false := by simpa using hpq
      rw [List.filter_cons_of_neg (by simp), lookup_filter_ne p x hpq next, List.lookup_cons, hbeq]
    · rw [List.filter_cons_of_pos (by simpa using hx), List.lookup_cons, List.lookup_cons,
        lookup_filter_ne p q hpq next]

/-- **The ledger after some events**, as a function of them. -/
structure Reflects (before : List Event) (l : Ledger) : Prop where
  produced : l.produced = countOf .produced before
  consumed : l.consumed = countOf .consumed before
  completions : l.completions = countOf .completed before
  peak : l.peak = peakOf before
  pending : (originsOf .consumed before ++ l.pending).Perm (originsOf .produced before)
  next : ∀ p, l.nextOf p = (placesOf p before).length
  nodup : (l.next.map Prod.fst).Nodup
  heads : ∀ p, p ∈ l.next.map Prod.fst ↔ p ∈ (originsOf .consumed before).map Origin.producer

namespace Reflects

theorem mem_pending (h : Reflects before l) (o : Origin) : o ∈ l.pending ↔ Pending before o := by
  have hcount := h.pending.count_eq o
  rw [List.count_append] at hcount
  rw [← List.count_pos_iff, Pending]
  omega

theorem pending_eq_nil (h : Reflects before l) : l.pending = [] ↔ ∀ o, ¬ Pending before o := by
  rw [List.eq_nil_iff_forall_not_mem]
  exact forall_congr' fun o => not_congr (h.mem_pending o)

theorem start : Reflects [] {} :=
  ⟨rfl, rfl, rfl, rfl, .refl _, fun _ => rfl, List.nodup_nil, fun _ => Iff.rfl⟩

theorem put (h : Reflects before l) {o : Origin} (hk : e.kind = .produced) (ho : e.Tells o)
    (hproduced : e.produced = l.produced + 1) :
    Reflects (before ++ [e])
      { l with peak := max l.peak e.occupancy, produced := e.produced, pending := o :: l.pending } := by
  have hc : originsOf .consumed (before ++ [e]) = originsOf .consumed before := by
    rw [originsOf_append, originsOf_other (by simp [hk]), List.append_nil]
  refine ⟨?_, ?_, ?_, ?_, ?_, fun p => ?_, h.nodup, by rw [hc]; exact h.heads⟩
  · simp [countOf_append, countOf_singleton, hk, hproduced, h.produced]
  · simp [countOf_append, countOf_singleton, hk, h.consumed]
  · simp [countOf_append, countOf_singleton, hk, h.completions]
  · rw [peakOf_append_singleton, h.peak]
  · rw [hc, originsOf_append, originsOf_singleton hk ho]
    exact List.perm_middle.trans ((h.pending.cons o).trans (List.perm_append_singleton _ _).symm)
  · rw [placesOf_append, placesOf_other (by simp [hk]), List.append_nil]
    exact h.next p

theorem taken (h : Reflects before l) {o : Origin} (hk : e.kind = .consumed) (ho : e.Tells o)
    (hconsumed : e.consumed = l.consumed + 1) (hmem : o ∈ l.pending) (hseq : o.sequence = l.nextOf o.producer) :
    Reflects (before ++ [e])
      { l with
        peak := max l.peak e.occupancy
        consumed := e.consumed
        pending := l.pending.erase o
        next := l.setNext o.producer (o.sequence + 1) } := by
  have hc : originsOf .consumed (before ++ [e]) = originsOf .consumed before ++ [o] := by
    rw [originsOf_append, originsOf_singleton hk ho]
  have hkeys : (l.setNext o.producer (o.sequence + 1)).map Prod.fst =
      o.producer :: (l.next.map Prod.fst).filter (· ≠ o.producer) := by
    rw [setNext, List.map_cons, List.filter_map]
    rfl
  refine ⟨?_, ?_, ?_, ?_, ?_, fun p => ?_, ?_, fun p => ?_⟩
  · simp [countOf_append, countOf_singleton, hk, h.produced]
  · simp [countOf_append, countOf_singleton, hk, hconsumed, h.consumed]
  · simp [countOf_append, countOf_singleton, hk, h.completions]
  · rw [peakOf_append_singleton, h.peak]
  · rw [hc, originsOf_append, originsOf_other (by simp [hk]), List.append_nil, List.append_assoc]
    exact ((List.perm_cons_erase hmem).symm.append_left _).trans h.pending
  · rw [placesOf_append, placesOf_singleton hk ho, List.length_append, ← h.next p]
    unfold nextOf setNext
    rw [List.lookup_cons]
    by_cases hp : o.producer = p
    · subst hp
      simpa [nextOf] using hseq
    · rw [lookup_filter_ne p o.producer (Ne.symm hp)]
      have hbeq : (p == o.producer) = false := by simpa using Ne.symm hp
      simp [hbeq, hp]
  · change ((l.setNext o.producer (o.sequence + 1)).map Prod.fst).Nodup
    rw [hkeys, List.nodup_cons]
    exact ⟨by simp, h.nodup.filter _⟩
  · change p ∈ (l.setNext o.producer (o.sequence + 1)).map Prod.fst ↔ _
    rw [hkeys, hc, List.map_append, List.mem_append, ← h.heads p, List.mem_cons, List.mem_filter]
    by_cases hp : p = o.producer <;> simp [hp]

theorem ended (h : Reflects before l) (hk : e.kind = .completed) :
    Reflects (before ++ [e]) { l with peak := max l.peak e.occupancy, completions := l.completions + 1 } := by
  have ho (kind : Kind) (hne : kind ≠ .completed) : originsOf kind (before ++ [e]) = originsOf kind before := by
    rw [originsOf_append, originsOf_other (by rw [hk]; exact hne.symm), List.append_nil]
  have hc := ho .consumed nofun
  refine ⟨?_, ?_, ?_, ?_, ?_, fun p => ?_, h.nodup, by rw [hc]; exact h.heads⟩
  · simp [countOf_append, countOf_singleton, hk, h.produced]
  · simp [countOf_append, countOf_singleton, hk, h.consumed]
  · simp [countOf_append, countOf_singleton, hk, h.completions]
  · rw [peakOf_append_singleton, h.peak]
  · rw [hc, ho .produced nofun]
    exact h.pending
  · rw [placesOf_append, placesOf_other (by simp [hk]), List.append_nil]
    exact h.next p

theorem counts_le (h : Reflects before l) :
    l.produced ≤ before.length ∧ l.consumed ≤ before.length ∧ l.completions ≤ before.length := by
  rw [h.produced, h.consumed, h.completions]
  exact ⟨List.countP_le_length, List.countP_le_length, List.countP_le_length⟩

theorem nextOf_le (h : Reflects before l) (p : Nat) : l.nextOf p ≤ before.length := by
  rw [h.next, placesOf, List.length_map]
  refine (List.length_filter_le _ _).trans ?_
  rw [originsOf, List.length_map]
  exact (List.length_filterMap_le _ _).trans (List.length_filter_le _ _)

/-- **An event that passes is admitted**, and the ledger goes on reflecting the events. -/
theorem enter (h : Reflects before l) (hok : l.enter capacity before.length e = .ok l') :
    e.Admitted capacity before ∧ Reflects (before ++ [e]) l' := by
  obtain ⟨hadds, hkind⟩ := enter_eq_ok.1 hok
  cases hk : e.kind with
  | produced =>
    rw [hk] at hkind
    obtain ⟨hnone, hput⟩ := hkind
    obtain ⟨-, ⟨hp, hc⟩, o, ⟨ho, -⟩, hnew, rfl⟩ := enterProduced_eq_ok.1 hput
    have hr := h.put hk ho hp
    refine ⟨⟨hadds, fun _ => h.completions ▸ hnone, fun _ => ⟨hr.produced, hc.trans hr.consumed⟩,
      fun _ => ⟨o, ho, fun hpending => hnew ((h.mem_pending o).2 hpending)⟩, ?_, ?_⟩, hr⟩ <;> simp [hk]
  | consumed =>
    rw [hk] at hkind
    obtain ⟨hnone, htaken⟩ := hkind
    obtain ⟨-, ⟨hc, hp⟩, o, ⟨ho, -⟩, hmem, hseq, -, rfl⟩ := enterConsumed_eq_ok.1 htaken
    have hr := h.taken hk ho hc hmem hseq
    refine ⟨⟨hadds, fun _ => h.completions ▸ hnone, fun _ => ⟨hp.trans hr.produced, hr.consumed⟩, ?_,
      fun _ => ⟨o, ho, (h.mem_pending o).1 hmem, hseq.trans (h.next o.producer)⟩, ?_⟩, hr⟩ <;> simp [hk]
  | completed =>
    rw [hk] at hkind
    obtain ⟨-, hc, hnone, rfl⟩ := enterCompleted_eq_ok.1 hkind
    refine ⟨⟨hadds, ?_, ?_, ?_, ?_, fun _ => ⟨hc.trans h.produced, h.pending_eq_nil.1 hnone⟩⟩, h.ended hk⟩ <;> simp [hk]

/-- **An event that is admitted passes**, where nothing leaves 64 bits. -/
theorem exists_enter (h : Reflects before l) (hlength : before.length + 1 < Word.limit)
    (hvalue : ∀ v ∈ e.value, v < Word.limit) (he : e.Admitted capacity before) :
    ∃ l', l.enter capacity before.length e = .ok l' := by
  obtain ⟨hproduced, hconsumed, hcompletions⟩ := h.counts_le
  simp only [enter_eq_ok]
  cases hk : e.kind with
  | produced =>
    obtain ⟨hp, hc⟩ := he.counted (by simp [hk])
    obtain ⟨o, ho, hnew⟩ := he.put hk
    refine ⟨_, he.adds, h.completions.trans (he.unfinished (by simp [hk])),
      enterProduced_eq_ok.2 ⟨by simp only; omega, ⟨?_, ?_⟩, o, ⟨ho, value_fits hvalue ho⟩,
        fun hmem => hnew ((h.mem_pending o).1 hmem), rfl⟩⟩
    · simpa [countOf_append, countOf_singleton, hk, h.produced] using hp
    · simpa [countOf_append, countOf_singleton, hk, h.consumed] using hc
  | consumed =>
    obtain ⟨hp, hc⟩ := he.counted (by simp [hk])
    obtain ⟨o, ho, hpending, hseq⟩ := he.taken hk
    have hplace := hseq.trans (h.next o.producer).symm
    have hnext := h.nextOf_le o.producer
    refine ⟨_, he.adds, h.completions.trans (he.unfinished (by simp [hk])),
      enterConsumed_eq_ok.2 ⟨by simp only; omega, ⟨?_, ?_⟩, o, ⟨ho, value_fits hvalue ho⟩,
        (h.mem_pending o).2 hpending, hplace, by omega, rfl⟩⟩
    · simpa [countOf_append, countOf_singleton, hk, h.consumed] using hc
    · simpa [countOf_append, countOf_singleton, hk, h.produced] using hp
  | completed =>
    obtain ⟨hc, hnone⟩ := he.closing hk
    exact ⟨_, he.adds, enterCompleted_eq_ok.2
      ⟨by simp only; omega, hc.trans h.produced.symm, h.pending_eq_nil.2 hnone, rfl⟩⟩

/-- **What passes of a journal is admitted**, event by event. -/
theorem enterAll : ∀ (rest : List Event) {before : List Event} {l l' : Ledger}, Reflects before l →
    EachFollows (Event.Admitted capacity) before → l.enterAll capacity before.length rest = .ok l' →
    EachFollows (Event.Admitted capacity) (before ++ rest) ∧ Reflects (before ++ rest) l'
  | [], before, l, l', h, hbefore, hok => by
    cases hok
    rw [List.append_nil]
    exact ⟨hbefore, h⟩
  | e :: rest, before, l, l', h, hbefore, hok => by
    obtain ⟨l₁, hfirst, hrest⟩ := bind_eq_ok.1 hok
    obtain ⟨he, hr⟩ := h.enter hfirst
    rw [show before.length + 1 = (before ++ [e]).length by simp] at hrest
    have hall := enterAll rest hr (eachFollows_concat.2 ⟨hbefore, he⟩) hrest
    rw [List.append_assoc, List.singleton_append] at hall
    exact hall

/-- **What is admitted of a journal passes**, where nothing leaves 64 bits. -/
theorem exists_enterAll : ∀ (rest : List Event) {before : List Event} {l : Ledger}, Reflects before l →
    (before ++ rest).length < Word.limit → (∀ e ∈ rest, ∀ v ∈ e.value, v < Word.limit) →
    EachFollows (Event.Admitted capacity) (before ++ rest) → ∃ l', l.enterAll capacity before.length rest = .ok l'
  | [], before, l, _, _, _, _ => ⟨l, rfl⟩
  | e :: rest, before, l, h, hlength, hvalues, hall => by
    have hroom : before.length + 1 < Word.limit := by
      rw [List.length_append, List.length_cons] at hlength
      omega
    have hsplit : before ++ e :: rest = before ++ [e] ++ rest := by simp
    obtain ⟨l₁, hok⟩ := h.exists_enter hroom (hvalues e List.mem_cons_self) (hall before e rest rfl)
    rw [hsplit] at hlength hall
    obtain ⟨l', hrest⟩ := exists_enterAll rest (h.enter hok).2 hlength
      (fun x hx => hvalues x (List.mem_cons_of_mem _ hx)) hall
    rw [List.length_append] at hrest
    exact ⟨l', bind_eq_ok.2 ⟨l₁, hok, hrest⟩⟩

theorem producers_eq (h : Reflects before l) :
    l.next.length = ((originsOf .consumed before).map Origin.producer).dedup.length := by
  have hperm : (l.next.map Prod.fst).Perm ((originsOf .consumed before).map Origin.producer).dedup := by
    rw [List.perm_ext_iff_of_nodup h.nodup (List.nodup_dedup _)]
    intro p
    rw [List.mem_dedup]
    exact h.heads p
  simpa using hperm.length_eq

end Reflects
end Ledger

/-- The totals that a journal shows. -/
def Summary.ofJournal (journal : List Event) : Summary where
  produced := countOf .produced journal
  consumed := countOf .consumed journal
  completions := countOf .completed journal
  producers := ((originsOf .consumed journal).map Origin.producer).dedup.length
  peakOccupancy := peakOf journal

theorem Ledger.Reflects.summary_eq {journal : List Event} {l : Ledger} (h : l.Reflects journal) :
    (⟨l.produced, l.consumed, l.completions, l.next.length, l.peak⟩ : Summary) = Summary.ofJournal journal := by
  rw [Summary.ofJournal, h.produced, h.consumed, h.completions, h.producers_eq, h.peak]

/-- **Of a journal that passes each event is admitted**, one tells of the end and the total is right. -/
theorem admitted_of_check {journal : List Event} {capacity total : Option Nat} {s : Summary}
    (hok : check journal capacity total = .ok s) : EachFollows (Event.Admitted capacity) journal ∧
      0 < countOf .completed journal ∧ (∀ n ∈ total, countOf .consumed journal = n) ∧ s = Summary.ofJournal journal := by
  obtain ⟨l, hall, hclose⟩ := bind_eq_ok.1 hok
  obtain ⟨hpos, htotal, rfl⟩ := Ledger.close_eq_ok.1 hclose
  obtain ⟨hadmitted, hr⟩ := Ledger.Reflects.start.enterAll journal (eachFollows_nil (Event.Admitted capacity)) hall
  rw [List.nil_append] at hadmitted hr
  exact ⟨hadmitted, hr.completions ▸ hpos, fun n hn => hr.consumed ▸ htotal n hn, hr.summary_eq⟩

/-- **A journal passes exactly if each of its events is admitted**, one tells of the end and the total is right. -/
theorem check_eq_ok {journal : List Event} {capacity total : Option Nat} {s : Summary}
    (hlength : journal.length < Word.limit) (hvalues : ∀ e ∈ journal, ∀ v ∈ e.value, v < Word.limit) :
    check journal capacity total = .ok s ↔ EachFollows (Event.Admitted capacity) journal ∧
      0 < countOf .completed journal ∧ (∀ n ∈ total, countOf .consumed journal = n) ∧ s = Summary.ofJournal journal := by
  refine ⟨admitted_of_check, ?_⟩
  rintro ⟨hall, hpos, htotal, rfl⟩
  obtain ⟨l, hok⟩ := Ledger.Reflects.start.exists_enterAll journal hlength hvalues hall
  have hr := (Ledger.Reflects.start.enterAll journal (eachFollows_nil (Event.Admitted capacity)) hok).2
  rw [List.nil_append] at hr
  exact bind_eq_ok.2 ⟨l, hok, Ledger.close_eq_ok.2
    ⟨hr.completions ▸ hpos, fun n hn => hr.consumed ▸ htotal n hn, hr.summary_eq.symm⟩⟩

end Audit
end Handover
