import Handover.Proofs.Ledger
/-!
# Overflow — the one number that a journal can make too large

Nothing is known of the numbers in a journal before they are checked, and a pass computes with them.  Most of what it
computes stays in 64 bits.  The difference of the counters is taken after it was found not to be below zero.  The
totals, the number of ends and the next place of a producer are counts of the events that have passed, whatever those
events say (`Ledger.Reflects.counts_lt`).  What is left is the value of an item, which is computed from two numbers that
nothing has bounded (`Event.Overflows`).
-/
namespace Handover

namespace Word

theorem add_eq_error {a b : Nat} {f : Fault} : add a b = .error f ↔ limit ≤ a + b ∧ f = .sumOverflow := by
  unfold add
  by_cases h : a + b < limit <;> simp [h, eq_comm]
  omega

theorem mul_eq_error {a b : Nat} {f : Fault} : mul a b = .error f ↔ limit ≤ a * b ∧ f = .productOverflow := by
  unfold mul
  by_cases h : a * b < limit <;> simp [h, eq_comm]
  omega

end Word

/-- The value of an item leaves 64 bits in the product or else in the sum. -/
theorem Item.checkedValue_eq_error {producer sequence : Nat} {f : Fault} :
    checkedValue producer sequence = .error f ↔ Word.limit ≤ valueOf producer sequence ∧
      f = if producer * 100 < Word.limit then .sumOverflow else .productOverflow := by
  unfold checkedValue valueOf
  by_cases h : producer * 100 < Word.limit
  · rw [Word.mul_eq_ok.2 ⟨h, rfl⟩, if_pos h]
    exact Word.add_eq_error
  · rw [Word.mul_eq_error.2 ⟨by omega, rfl⟩, if_neg h, and_iff_right (by omega)]
    exact ⟨fun h => (Except.error.inj h).symm, fun h => h ▸ rfl⟩

/-- **The event has all parts of an item, and the value that they tell does not fit in 64 bits.** -/
def Event.Overflows (f : Fault) (e : Event) : Prop :=
  ∃ producer sequence value, e.producer = some producer ∧ e.sequence = some sequence ∧ e.value = some value ∧
    Word.limit ≤ Item.valueOf producer sequence ∧
    f = if producer * 100 < Word.limit then .sumOverflow else .productOverflow

/-- **The event passes every test that comes before that of its item**, after the events before it. -/
structure Event.ReachesItem (capacity : Option Nat) (before : List Event) (e : Event) : Prop where
  item : e.kind ≠ .completed
  adds : e.Adds capacity before.length
  unfinished : countOf .completed before = 0
  produced : e.produced = countOf .produced (before ++ [e])
  consumed : e.consumed = countOf .consumed (before ++ [e])

namespace Audit

/-! ## Where a pass stops on a fault -/

theorem bind_eq_fault {α β : Type} {x : Except Failure α} {g : α → Except Failure β} {f : Fault} :
    (x >>= g) = .error (.fault f) ↔ x = .error (.fault f) ∨ ∃ a, x = .ok a ∧ g a = .error (.fault f) := by
  cases x <;> simp [bind, Except.bind]

theorem ensure_ne_fault {holds : Bool} {cause : EventError} {index : Nat} {f : Fault} :
    ensure holds cause index ≠ .error (.fault f) := by
  unfold ensure
  split <;> nofun

theorem counted_eq_fault {x : Except Fault Nat} {f : Fault} : counted x = .error (.fault f) ↔ x = .error f := by
  cases x <;> simp [counted, Except.mapError]

theorem originOf_eq_fault {index : Nat} {e : Event} {f : Fault} :
    originOf index e = .error (.fault f) ↔ e.Overflows f := by
  unfold originOf Event.Overflows
  split
  · rename_i p n v hp hn hv
    simp only [bind_eq_fault, counted_eq_fault, Item.checkedValue_eq_error, ensure_ne_fault, pure, Except.pure,
      reduceCtorEq, and_false, exists_const, or_false, hp, hn, hv, Option.some.injEq]
    constructor
    · intro h
      exact ⟨p, n, v, rfl, rfl, rfl, h⟩
    · rintro ⟨_, _, _, rfl, rfl, rfl, h⟩
      exact h
  · rename_i hnone
    constructor
    · intro h
      cases h
    · rintro ⟨p, n, v, hp, hn, hv, -⟩
      exact absurd hv (hnone p n v hp hn)

namespace Ledger

variable {capacity total : Option Nat} {l l' : Ledger} {before rest : List Event} {e : Event} {index : Nat} {f : Fault}

theorem enterProduced_eq_fault (hroom : l.produced + 1 < Word.limit) : l.enterProduced index e = .error (.fault f) ↔
    (e.produced = l.produced + 1 ∧ e.consumed = l.consumed) ∧ e.Overflows f := by
  have hnot : ¬ Word.limit ≤ l.produced + 1 := by omega
  unfold enterProduced
  simp [bind_eq_fault, counted_eq_fault, counted_eq_ok, Word.add_eq_error, Word.add_eq_ok, ensure_ne_fault,
    originOf_eq_fault, pure, Except.pure, hnot, hroom]

theorem enterConsumed_eq_fault (hroom : l.consumed + 1 < Word.limit) (hnext : ∀ p, l.nextOf p + 1 < Word.limit) :
    l.enterConsumed index e = .error (.fault f) ↔
      (e.consumed = l.consumed + 1 ∧ e.produced = l.produced) ∧ e.Overflows f := by
  have hnot : ¬ Word.limit ≤ l.consumed + 1 := by omega
  have hplace (p : Nat) : ¬ Word.limit ≤ l.nextOf p + 1 := Nat.not_le.2 (hnext p)
  unfold enterConsumed
  simp +contextual [bind_eq_fault, counted_eq_fault, counted_eq_ok, Word.add_eq_error, Word.add_eq_ok, ensure_ne_fault,
    originOf_eq_fault, pure, Except.pure, hnot, hroom, hplace]

theorem enterCompleted_ne_fault (hroom : l.completions + 1 < Word.limit) :
    l.enterCompleted index e ≠ .error (.fault f) := by
  have hnot : ¬ Word.limit ≤ l.completions + 1 := by omega
  unfold enterCompleted
  simp [bind_eq_fault, counted_eq_fault, counted_eq_ok, Word.add_eq_error, Word.add_eq_ok, ensure_ne_fault,
    pure, Except.pure, hnot, hroom]

/-- What every event has to pass stops on no fault: the difference of the counters is taken when the one is known not to
exceed the other. -/
theorem enter_eq_fault : l.enter capacity index e = .error (.fault f) ↔ e.Adds capacity index ∧
    match e.kind with
    | .produced => l.completions = 0 ∧
      ({ l with peak := max l.peak e.occupancy } : Ledger).enterProduced index e = .error (.fault f)
    | .consumed => l.completions = 0 ∧
      ({ l with peak := max l.peak e.occupancy } : Ledger).enterConsumed index e = .error (.fault f)
    | .completed =>
      ({ l with peak := max l.peak e.occupancy } : Ledger).enterCompleted index e = .error (.fault f) := by
  rw [Event.adds_iff]
  unfold enter
  cases capacity with
  | none => cases e.kind <;> simp +contextual [bind_eq_fault, ensure_ne_fault, and_assoc, counted_sub]
  | some n => cases e.kind <;> simp +contextual [bind_eq_fault, ensure_ne_fault, and_assoc, counted_sub]

namespace Reflects

/-- **What the ledger counts is bounded by the number of events**, so that one more fits in 64 bits wherever they do. -/
theorem counts_lt (h : Reflects before l) (hlength : before.length + 1 < Word.limit) :
    l.produced + 1 < Word.limit ∧ l.consumed + 1 < Word.limit ∧ l.completions + 1 < Word.limit ∧
      ∀ p, l.nextOf p + 1 < Word.limit := by
  obtain ⟨hproduced, hconsumed, hcompletions⟩ := h.counts_le
  refine ⟨by omega, by omega, by omega, fun p => ?_⟩
  have hnext := h.nextOf_le p
  omega

/-- **An event stops the pass on a fault exactly if the value of its item is asked for and does not fit.** -/
theorem enter_eq_fault (h : Reflects before l) (hlength : before.length + 1 < Word.limit) :
    l.enter capacity before.length e = .error (.fault f) ↔ e.ReachesItem capacity before ∧ e.Overflows f := by
  obtain ⟨hproduced, hconsumed, hcompletions, hnext⟩ := h.counts_lt hlength
  rw [Ledger.enter_eq_fault]
  cases hk : e.kind with
  | produced =>
    have hcounts : countOf .produced (before ++ [e]) = l.produced + 1 ∧
        countOf .consumed (before ++ [e]) = l.consumed := by
      simp [countOf_append, countOf_singleton, hk, h.produced, h.consumed]
    simp only [enterProduced_eq_fault (l := { l with peak := max l.peak e.occupancy }) hproduced]
    constructor
    · rintro ⟨hadds, hnone, ⟨hp, hc⟩, hover⟩
      exact ⟨⟨by simp [hk], hadds, h.completions ▸ hnone, hp.trans hcounts.1.symm, hc.trans hcounts.2.symm⟩, hover⟩
    · rintro ⟨⟨-, hadds, hnone, hp, hc⟩, hover⟩
      exact ⟨hadds, h.completions ▸ hnone, ⟨hp.trans hcounts.1, hc.trans hcounts.2⟩, hover⟩
  | consumed =>
    have hcounts : countOf .produced (before ++ [e]) = l.produced ∧
        countOf .consumed (before ++ [e]) = l.consumed + 1 := by
      simp [countOf_append, countOf_singleton, hk, h.produced, h.consumed]
    simp only [enterConsumed_eq_fault (l := { l with peak := max l.peak e.occupancy }) hconsumed hnext]
    constructor
    · rintro ⟨hadds, hnone, ⟨hc, hp⟩, hover⟩
      exact ⟨⟨by simp [hk], hadds, h.completions ▸ hnone, hp.trans hcounts.1.symm, hc.trans hcounts.2.symm⟩, hover⟩
    · rintro ⟨⟨-, hadds, hnone, hp, hc⟩, hover⟩
      exact ⟨hadds, h.completions ▸ hnone, ⟨hc.trans hcounts.2, hp.trans hcounts.1⟩, hover⟩
  | completed =>
    constructor
    · rintro ⟨-, hfault⟩
      exact absurd hfault (enterCompleted_ne_fault hcompletions)
    · rintro ⟨⟨hno, -⟩, -⟩
      exact absurd hk hno

end Reflects

/-- **A pass stops at the first event that it cannot enter**, after those before it. -/
theorem enterAll_eq_error {x : Failure} : ∀ (rest : List Event) {l : Ledger} {index : Nat},
    l.enterAll capacity index rest = .error x ↔ ∃ pre e post l', rest = pre ++ e :: post ∧
      l.enterAll capacity index pre = .ok l' ∧ l'.enter capacity (index + pre.length) e = .error x
  | [], l, index => by
    refine ⟨nofun, ?_⟩
    rintro ⟨pre, e, post, l', hsplit, -⟩
    simp at hsplit
  | e :: rest, l, index => by
    rw [enterAll]
    cases henter : l.enter capacity index e with
    | error y =>
      constructor
      · rintro ⟨⟩
        exact ⟨[], e, rest, l, rfl, rfl, henter⟩
      · rintro ⟨pre, e', post, l', hsplit, hpre, hstop⟩
        cases pre with
        | nil =>
          cases hsplit
          cases hpre
          exact henter.symm.trans hstop
        | cons e'' pre =>
          cases hsplit
          rw [enterAll, henter] at hpre
          cases hpre
    | ok l₁ =>
      refine (enterAll_eq_error rest).trans ?_
      constructor
      · rintro ⟨pre, e', post, l', hsplit, hpre, hstop⟩
        refine ⟨e :: pre, e', post, l', by rw [hsplit]; rfl, ?_, ?_⟩
        · rw [enterAll, henter]
          exact hpre
        · rw [List.length_cons, Nat.add_comm pre.length 1, ← Nat.add_assoc]
          exact hstop
      · rintro ⟨pre, e', post, l', hsplit, hpre, hstop⟩
        cases pre with
        | nil =>
          cases hsplit
          cases hpre
          cases henter.symm.trans hstop
        | cons e'' pre =>
          cases hsplit
          rw [enterAll, henter] at hpre
          rw [List.length_cons, Nat.add_comm pre.length 1, ← Nat.add_assoc] at hstop
          exact ⟨pre, e', post, l', rfl, hpre, hstop⟩

theorem close_ne_fault : l.close total ≠ .error (.fault f) := by
  unfold close
  cases total with
  | none =>
    by_cases h : l.completions = 0 <;>
      simp [h, bind, Except.bind, pure, Except.pure, throw, throwThe, MonadExceptOf.throw]
  | some n =>
    by_cases h : l.completions = 0 <;> by_cases hn : l.consumed = n <;>
      simp [h, hn, bind, Except.bind, pure, Except.pure, throw, throwThe, MonadExceptOf.throw]

end Ledger

variable {journal : List Event} {capacity total : Option Nat}

/-- **A journal stops the audit on a fault exactly if it asks for the value of an item that does not fit in 64 bits.**
Take any journal of fewer events than 64 bits can count, with any numbers in it.  There is a fault exactly if some
event, after events that all passed, is about an item, passes every test that comes before that of the item, has all
parts of an item, and these tell a value that does not fit; and the fault is that of the product or else that of the
sum, never of the difference of the counters.  Wherever the pass gets to, one more still fits in each of its totals, in
its number of ends and in each producer's next place. -/
theorem fault_iff_value_overflows (hlength : journal.length < Word.limit) :
    (∀ f, check journal capacity total = .error (.fault f) ↔
      ∃ before e after, journal = before ++ e :: after ∧ (∃ l, Ledger.enterAll capacity {} 0 before = .ok l) ∧
        e.ReachesItem capacity before ∧ e.Overflows f) ∧
    ∀ before e after l, journal = before ++ e :: after → Ledger.enterAll capacity {} 0 before = .ok l →
      l.produced + 1 < Word.limit ∧ l.consumed + 1 < Word.limit ∧ l.completions + 1 < Word.limit ∧
        ∀ p, l.nextOf p + 1 < Word.limit := by
  have hroom {before : List Event} {e : Event} {after : List Event} (hsplit : journal = before ++ e :: after) :
      before.length + 1 < Word.limit := by
    rw [hsplit, List.length_append, List.length_cons] at hlength
    omega
  have hreflects {before : List Event} {l : Ledger} (hall : Ledger.enterAll capacity {} 0 before = .ok l) :
      l.Reflects before :=
    (Ledger.Reflects.start.enterAll before (eachFollows_nil (Event.Admitted capacity)) hall).2
  refine ⟨fun f => ?_, fun before e after l hsplit hall => (hreflects hall).counts_lt (hroom hsplit)⟩
  unfold check
  simp only [bind_eq_fault, Ledger.close_ne_fault, and_false, exists_const, or_false, Ledger.enterAll_eq_error,
    Nat.zero_add]
  constructor
  · rintro ⟨before, e, after, l, hsplit, hall, hstop⟩
    exact ⟨before, e, after, hsplit, ⟨l, hall⟩, ((hreflects hall).enter_eq_fault (hroom hsplit)).1 hstop⟩
  · rintro ⟨before, e, after, hsplit, ⟨l, hall⟩, hasked⟩
    exact ⟨before, e, after, l, hsplit, hall, ((hreflects hall).enter_eq_fault (hroom hsplit)).2 hasked⟩

/-- The second event is the one: a hundred times its producer still fits, and with the sequence it is the first number
that does not.  That its value is wrong and that the third event is nonsense is never found out. -/
theorem fault_iff_value_overflows_in_sum :
    let first : Event := ⟨0, .produced, some 0, some 0, some 0, 1, 0, 1⟩
    let second : Event := ⟨1, .produced, some 184467440737095516, some 16, some 7, 2, 0, 2⟩
    let third : Event := ⟨9, .consumed, none, none, none, 18446744073709551615, 0, 0⟩
    [first, second, third].length < Word.limit ∧
      check [first, second, third] (some 2) none = .error (.fault .sumOverflow) := by
  intro first second third
  have hlength : [first, second, third].length < Word.limit := by decide
  have hfirst : Ledger.enterAll (some 2) {} 0 [first] = .ok ⟨1, 0, 0, 1, [⟨0, 0⟩], []⟩ := by decide
  have hreaches : second.ReachesItem (some 2) [first] :=
    ⟨nofun, ⟨rfl, by decide, rfl, by decide⟩, rfl, rfl, rfl⟩
  have hover : second.Overflows .sumOverflow := ⟨_, _, _, rfl, rfl, rfl, by decide, by decide⟩
  refine ⟨hlength, ((fault_iff_value_overflows hlength).1 _).2 ?_⟩
  exact ⟨[first], second, [third], rfl, ⟨_, hfirst⟩, hreaches, hover⟩

end Audit
end Handover
