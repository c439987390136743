import Handover.Proofs.Consistency
/-!
# Backlog — how far the counters of a journal that passes can be trusted

The items that were produced and not yet consumed are the backlog.  Of a journal that passes, each event about an item
counts truly and shows the backlog.  An event of the end is asked for the number of consumed items only: what it says
was produced may be more than the truth, and then it shows that excess as if it were in the buffer.  So the counters are
all true exactly if every event of the end shows an empty buffer, and then the peak is one that the backlog has reached.
-/
namespace Handover

def backlogOf (journal : List Event) : Nat := countOf .produced journal - countOf .consumed journal

/-- **The event counts what was produced and consumed up to and including itself**, and shows the backlog. -/
structure Event.CountsTruly (before : List Event) (e : Event) : Prop where
  produced : e.produced = countOf .produced (before ++ [e])
  consumed : e.consumed = countOf .consumed (before ++ [e])
  occupancy : e.occupancy = backlogOf (before ++ [e])

theorem length_originsOf {kind : Kind} : ∀ journal : List Event, (∀ e ∈ journal, e.kind = kind → ∃ o, e.Tells o) →
    (originsOf kind journal).length = countOf kind journal
  | [], _ => rfl
  | e :: journal, h => by
    have ih := length_originsOf journal fun x hx => h x (List.mem_cons_of_mem _ hx)
    rw [← List.singleton_append, originsOf_append, countOf_append, List.length_append, ih, countOf_singleton]
    by_cases hk : e.kind = kind
    · obtain ⟨o, ho⟩ := h e List.mem_cons_self hk
      rw [originsOf_singleton hk ho, if_pos hk]
      rfl
    · rw [originsOf_other hk, if_neg hk]
      rfl

namespace Audit

variable {capacity total : Option Nat} {journal before after : List Event} {e : Event}

namespace Consistent

theorem consumed_eq_produced (h : Consistent capacity total journal) :
    countOf .consumed journal = countOf .produced journal := by
  rw [← length_originsOf journal fun e he hk => h.told e he (by simp [hk]),
    ← length_originsOf journal fun e he hk => h.told e he (by simp [hk])]
  exact h.handed.length_eq

theorem countOf_at_end (h : Consistent capacity total journal) (hsplit : journal = before ++ e :: after)
    (he : e.kind = .completed) (kind : Kind) (hkind : kind ≠ .completed) :
    countOf kind (before ++ [e]) = countOf kind journal := by
  rw [countOf_append, countOf_singleton, if_neg (by rw [he]; exact hkind.symm), Nat.add_zero]
  exact (items_before_end h.unfinished hsplit he kind hkind).2.symm

theorem backlog_at_end (h : Consistent capacity total journal) (hsplit : journal = before ++ e :: after)
    (he : e.kind = .completed) : backlogOf (before ++ [e]) = 0 := by
  rw [backlogOf, h.countOf_at_end hsplit he .produced nofun, h.countOf_at_end hsplit he .consumed nofun,
    h.consumed_eq_produced]
  exact Nat.sub_self _

/-- **An event about an item counts truly.** -/
theorem countsTruly (h : Consistent capacity total journal) (hsplit : journal = before ++ e :: after)
    (he : e.kind ≠ .completed) : e.CountsTruly before := by
  obtain ⟨hproduced, hconsumed⟩ := h.counted before e after hsplit he
  obtain ⟨-, hoccupancy, -⟩ := h.level e (by simp [hsplit])
  refine ⟨hproduced, hconsumed, ?_⟩
  rw [hoccupancy, hproduced, hconsumed, backlogOf]

/-- **An event of the end counts the consumed items truly**, and what it shows in the buffer is what it adds to the
items that were produced. -/
theorem counts_at_end (h : Consistent capacity total journal) (hsplit : journal = before ++ e :: after)
    (he : e.kind = .completed) : e.consumed = countOf .consumed (before ++ [e]) ∧
      e.produced = countOf .produced (before ++ [e]) + e.occupancy := by
  have hmem : e ∈ journal := by simp [hsplit]
  have hclosed := h.closed e hmem he
  have hbalance := h.consumed_eq_produced
  obtain ⟨hle, hoccupancy, -⟩ := h.level e hmem
  rw [h.countOf_at_end hsplit he .produced nofun, h.countOf_at_end hsplit he .consumed nofun]
  omega

theorem countsTruly_at_end_iff (h : Consistent capacity total journal) (hsplit : journal = before ++ e :: after)
    (he : e.kind = .completed) : e.CountsTruly before ↔ e.occupancy = 0 := by
  obtain ⟨hconsumed, hproduced⟩ := h.counts_at_end hsplit he
  have hnone := h.backlog_at_end hsplit he
  constructor
  · intro htrue
    exact htrue.occupancy.trans hnone
  · intro hempty
    exact ⟨by omega, hconsumed, by omega⟩

/-- No prefix of the journal leaves more behind than the peak. -/
theorem backlog_le_peak (h : Consistent capacity total journal) (hsplit : journal = before ++ after) :
    backlogOf before ≤ peakOf journal := by
  rcases List.eq_nil_or_concat before with rfl | ⟨init, e, rfl⟩
  · exact Nat.zero_le _
  rw [List.concat_eq_append] at hsplit ⊢
  have hsplit' : journal = init ++ e :: after := by simp [hsplit]
  by_cases he : e.kind = .completed
  · rw [h.backlog_at_end hsplit' he]
    exact Nat.zero_le _
  · rw [← (h.countsTruly hsplit' he).occupancy]
    exact le_peakOf e (by simp [hsplit'])

end Consistent

/-- **The counters of a journal that passes are true up to what its events of the end add.**  Each event about an item
counts truly.  An event of the end counts the consumed items truly and never says that less was produced than was, and
the peak is never below the backlog.  All events count truly exactly if every event of the end shows an empty buffer,
and then the peak is the largest backlog that there was. -/
theorem counters_true_up_to_the_end {s : Summary} (hok : check journal capacity total = .ok s) :
    EachFollows (fun before e => (e.kind ≠ .completed → e.CountsTruly before) ∧
      e.consumed = countOf .consumed (before ++ [e]) ∧ countOf .produced (before ++ [e]) ≤ e.produced) journal ∧
    (∀ before after, journal = before ++ after → backlogOf before ≤ s.peakOccupancy) ∧
    (EachFollows Event.CountsTruly journal ↔ ∀ e ∈ journal, e.kind = .completed → e.occupancy = 0) ∧
    (EachFollows Event.CountsTruly journal →
      ∃ before after, journal = before ++ after ∧ backlogOf before = s.peakOccupancy) := by
  obtain ⟨hadmitted, hended, htotal, rfl⟩ := admitted_of_check hok
  have h := consistent_of_admitted hadmitted hended htotal
  refine ⟨fun before e after hsplit => ⟨h.countsTruly hsplit, ?_⟩, fun before after => h.backlog_le_peak,
    ⟨fun htrue e he hk => ?_, fun hempty before e after hsplit => ?_⟩, fun htrue => ?_⟩
  · by_cases hk : e.kind = .completed
    · obtain ⟨hconsumed, hproduced⟩ := h.counts_at_end hsplit hk
      exact ⟨hconsumed, by omega⟩
    · exact ⟨(h.countsTruly hsplit hk).consumed, (h.countsTruly hsplit hk).produced.ge⟩
  · obtain ⟨before, after, hsplit⟩ := List.append_of_mem he
    exact (h.countsTruly_at_end_iff hsplit hk).1 (htrue before e after hsplit)
  · by_cases hk : e.kind = .completed
    · exact (h.countsTruly_at_end_iff hsplit hk).2 (hempty e (by simp [hsplit]) hk)
    · exact h.countsTruly hsplit hk
  · change ∃ before after, journal = before ++ after ∧ backlogOf before = peakOf journal
    by_cases hpeak : 0 < peakOf journal
    · obtain ⟨e, he, hshown⟩ := exists_peakOf hpeak
      obtain ⟨before, after, hsplit⟩ := List.append_of_mem he
      exact ⟨before ++ [e], after, by simp [hsplit], by rw [← hshown, (htrue before e after hsplit).occupancy]⟩
    · exact ⟨[], journal, rfl, by rw [Nat.eq_zero_of_not_pos hpeak]; rfl⟩

/-- Two producers, a backlog of two, and two watchers that show an empty buffer. -/
theorem counters_true_up_to_the_end_crossed :
    let journal : List Event :=
      [⟨0, .produced, some 0, some 0, some 0, 1, 0, 1⟩, ⟨1, .produced, some 7, some 0, some 700, 2, 0, 2⟩,
        ⟨2, .consumed, some 7, some 0, some 700, 2, 1, 1⟩, ⟨3, .consumed, some 0, some 0, some 0, 2, 2, 0⟩,
        ⟨4, .completed, none, none, none, 2, 2, 0⟩, ⟨5, .completed, none, none, none, 2, 2, 0⟩]
    check journal (some 2) none = .ok ⟨2, 2, 2, 2, 2⟩ ∧ EachFollows Event.CountsTruly journal ∧
      ∃ before after, journal = before ++ after ∧ backlogOf before = 2 := by
  intro journal
  have hok : check journal (some 2) none = .ok ⟨2, 2, 2, 2, 2⟩ := by decide
  obtain ⟨-, -, htrue, hpeak⟩ := counters_true_up_to_the_end hok
  have hall := htrue.2 (by decide)
  exact ⟨hok, hall, hpeak hall⟩

/-- **An event of the end can be forged**: it says that six items were produced where there was one, and the journal
passes with a peak of five, though the buffer never held more than one item. -/
theorem forged_end_passes :
    let journal : List Event :=
      [⟨0, .produced, some 0, some 0, some 0, 1, 0, 1⟩, ⟨1, .consumed, some 0, some 0, some 0, 1, 1, 0⟩,
        ⟨2, .completed, none, none, none, 6, 1, 5⟩]
    check journal none none = .ok ⟨1, 1, 1, 1, 5⟩ ∧ ¬ EachFollows Event.CountsTruly journal ∧
      ∀ before ∈ journal.inits, backlogOf before ≤ 1 := by
  intro journal
  refine ⟨by decide, fun htrue => ?_, by decide⟩
  have hforged := (htrue (journal.take 2) _ [] rfl).produced
  revert hforged
  decide

end Audit
end Handover
