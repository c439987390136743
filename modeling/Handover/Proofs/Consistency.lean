import Handover.Proofs.Ledger
import Mathlib.Data.List.Induction
/-!
# Consistency — which journals pass

A journal is consistent if it tells of items that are each produced once and consumed once, later, in their producers'
order, with counters that add up and with the end at its end (`Consistent`).  The pass sees one event at a time and
forgets an item once it was consumed, so it would let the item be produced again.  What rules this out comes later: the
places of a producer's consumed items are counted up from zero, so no item is consumed twice, and at the end nothing is
left that was not consumed.
-/
namespace Handover

theorem originsOf_eq_nil {kind : Kind} {journal : List Event} (h : ∀ e ∈ journal, e.kind ≠ kind) :
    originsOf kind journal = [] := by
  have hnone : journal.filter (·.kind = kind) = [] := by simpa using h
  rw [originsOf, itemsOf, hnone]
  rfl

/-- Events of the end come last exactly if nothing else follows one. -/
theorem parts_iff {journal : List Event} :
    (∃ items ends, journal = items ++ ends ∧ (∀ e ∈ items, e.kind ≠ .completed) ∧ ∀ e ∈ ends, e.kind = .completed) ↔
      EachFollows (fun before e => e.kind ≠ .completed → countOf .completed before = 0) journal := by
  constructor
  · rintro ⟨items, ends, rfl, hitems, hends⟩ before e after hsplit hkind
    rcases List.append_eq_append_iff.1 hsplit with ⟨tail, -, htail⟩ | ⟨tail, rfl, -⟩
    · exact absurd (hends e (by simp [htail])) hkind
    · refine List.countP_eq_zero.2 fun x hx => ?_
      simpa using hitems x (List.mem_append_left _ hx)
  · intro h
    induction journal using List.reverseRecOn with
    | nil => exact ⟨[], [], rfl, nofun, nofun⟩
    | append_singleton journal e ih =>
      obtain ⟨hjournal, he⟩ := eachFollows_concat.1 h
      by_cases hkind : e.kind = .completed
      · obtain ⟨items, ends, rfl, hitems, hends⟩ := ih hjournal
        refine ⟨items, ends ++ [e], List.append_assoc _ _ _, hitems, fun x hx => ?_⟩
        rcases List.mem_append.1 hx with hx | hx
        · exact hends x hx
        · rw [List.mem_singleton.1 hx, hkind]
      · have hnone := List.countP_eq_zero.1 (he hkind)
        refine ⟨journal ++ [e], [], (List.append_nil _).symm, fun x hx => ?_, nofun⟩
        rcases List.mem_append.1 hx with hx | hx
        · simpa using hnone x hx
        · rw [List.mem_singleton.1 hx]
          exact hkind

/-- Once the end was told, the items of the journal are those before. -/
theorem items_before_end {journal before after : List Event} {e : Event}
    (h : EachFollows (fun before e => e.kind ≠ .completed → countOf .completed before = 0) journal)
    (hsplit : journal = before ++ e :: after) (he : e.kind = .completed) (kind : Kind) (hkind : kind ≠ .completed) :
    originsOf kind journal = originsOf kind before ∧ countOf kind journal = countOf kind before := by
  have htail : ∀ x ∈ e :: after, x.kind = .completed := by
    intro x hx
    by_contra hne
    rcases List.mem_cons.1 hx with rfl | hx
    · exact hne he
    · obtain ⟨a₁, a₂, rfl⟩ := List.append_of_mem hx
      have hzero := h (before ++ e :: a₁) x a₂ (by simp [hsplit]) hne
      exact absurd he (by simpa using List.countP_eq_zero.1 hzero e (by simp))
  have hother : ∀ x ∈ e :: after, x.kind ≠ kind := fun x hx => by rw [htail x hx]; exact hkind.symm
  rw [hsplit, originsOf_append, originsOf_eq_nil hother, countOf_append, List.append_nil]
  exact ⟨rfl, by simpa [countOf, List.countP_eq_zero] using hother⟩

theorem EachFollows.imp {P Q : List Event → Event → Prop} {journal : List Event} (h : EachFollows P journal)
    (hpq : ∀ before e, P before e → Q before e) : EachFollows Q journal :=
  fun before e after hsplit => hpq before e (h before e after hsplit)

theorem le_peakOf {journal : List Event} : ∀ e ∈ journal, e.occupancy ≤ peakOf journal := by
  induction journal using List.reverseRecOn with
  | nil => exact nofun
  | append_singleton journal x ih =>
    intro e he
    rw [peakOf_append_singleton]
    rcases List.mem_append.1 he with he | he
    · exact (ih e he).trans (Nat.le_max_left _ _)
    · rw [List.mem_singleton.1 he]
      exact Nat.le_max_right _ _

theorem exists_peakOf {journal : List Event} (h : 0 < peakOf journal) :
    ∃ e ∈ journal, e.occupancy = peakOf journal := by
  induction journal using List.reverseRecOn with
  | nil => exact absurd h (Nat.lt_irrefl 0)
  | append_singleton journal x ih =>
    rw [peakOf_append_singleton] at h ⊢
    by_cases hx : peakOf journal ≤ x.occupancy
    · exact ⟨x, by simp, (Nat.max_eq_right hx).symm⟩
    · rw [Nat.max_eq_left (Nat.le_of_not_le hx)] at h ⊢
      obtain ⟨e, he, hpeak⟩ := ih h
      exact ⟨e, List.mem_append_left _ he, hpeak⟩

namespace Audit

variable {capacity total : Option Nat} {journal : List Event}

/-- **A journal that tells how items went from hand to hand, one by one, until all were consumed.** -/
structure Consistent (capacity total : Option Nat) (journal : List Event) : Prop where
  numbered : EachFollows (fun before e => e.seq = before.length) journal
  parts : ∃ items ends, journal = items ++ ends ∧ ends ≠ [] ∧ (∀ e ∈ items, e.kind ≠ .completed) ∧
    ∀ e ∈ ends, e.kind = .completed
  counted : EachFollows (fun before e => e.kind ≠ .completed →
    e.produced = countOf .produced (before ++ [e]) ∧ e.consumed = countOf .consumed (before ++ [e])) journal
  told : ∀ e ∈ journal, e.kind ≠ .completed → ∃ o, e.Tells o
  distinct : (originsOf .produced journal).Nodup
  handed : (originsOf .consumed journal).Perm (originsOf .produced journal)
  later : EachFollows (fun before e => e.kind = .consumed → ∀ o, e.Tells o → o ∈ originsOf .produced before) journal
  ordered : ∀ p, placesOf p journal = List.range (placesOf p journal).length
  closed : ∀ e ∈ journal, e.kind = .completed → e.consumed = countOf .produced journal
  level : ∀ e ∈ journal, e.consumed ≤ e.produced ∧ e.occupancy = e.produced - e.consumed ∧
    ∀ n ∈ capacity, e.occupancy ≤ n
  total : ∀ n ∈ total, countOf .consumed journal = n

/-! ## What passes is consistent -/

/-- **No origin comes out more often than it went in, and each producer's items come out from the first one on.** -/
theorem consumed_of_admitted (h : EachFollows (Event.Admitted capacity) journal) :
    (∀ o, (originsOf .consumed journal).count o ≤ (originsOf .produced journal).count o) ∧
      ∀ p, placesOf p journal = List.range (placesOf p journal).length := by
  induction journal using List.reverseRecOn with
  | nil => exact ⟨fun _ => Nat.le_refl _, fun _ => rfl⟩
  | append_singleton journal e ih =>
    obtain ⟨hjournal, he⟩ := eachFollows_concat.1 h
    obtain ⟨hcount, hplaces⟩ := ih hjournal
    cases hk : e.kind with
    | produced =>
      obtain ⟨o, ho, -⟩ := he.put hk
      constructor
      · intro x
        rw [originsOf_append, originsOf_append, originsOf_other (by simp [hk]), originsOf_singleton hk ho,
          List.append_nil, List.count_append]
        exact (hcount x).trans (Nat.le_add_right _ _)
      · intro p
        rw [placesOf_append, placesOf_other (by simp [hk]), List.append_nil]
        exact hplaces p
    | consumed =>
      obtain ⟨o, ho, hpending, hseq⟩ := he.taken hk
      constructor
      · intro x
        rw [originsOf_append, originsOf_append, originsOf_singleton hk ho, originsOf_other (by simp [hk]),
          List.append_nil, List.count_append]
        by_cases hx : o = x
        · subst hx
          rw [List.count_singleton_self]
          exact hpending
        · rw [List.count_singleton, if_neg (by simpa using hx)]
          exact hcount x
      · intro p
        rw [placesOf_append, placesOf_singleton hk ho]
        by_cases hp : o.producer = p
        · rw [if_pos hp, List.length_append, List.length_singleton, List.range_succ, ← hplaces p, hseq, hp]
        · rw [if_neg hp, List.append_nil]
          exact hplaces p
    | completed =>
      constructor
      · intro x
        rw [originsOf_append, originsOf_append, originsOf_other (by simp [hk]), originsOf_other (by simp [hk]),
          List.append_nil, List.append_nil]
        exact hcount x
      · intro p
        rw [placesOf_append, placesOf_other (by simp [hk]), List.append_nil]
        exact hplaces p

theorem nodup_of_places (h : ∀ p, placesOf p journal = List.range (placesOf p journal).length) :
    (originsOf .consumed journal).Nodup := by
  rw [List.nodup_iff_count_le_one]
  intro o
  calc (originsOf .consumed journal).count o
      = ((originsOf .consumed journal).filter (·.producer = o.producer)).count o := by
        rw [List.count_filter (by simp)]
    _ ≤ (placesOf o.producer journal).count o.sequence := List.count_le_count_map
    _ ≤ 1 := by
        rw [h]
        exact List.nodup_iff_count_le_one.1 List.nodup_range _

theorem consistent_of_admitted (h : EachFollows (Event.Admitted capacity) journal)
    (hended : 0 < countOf .completed journal) (htotal : ∀ n ∈ total, countOf .consumed journal = n) :
    Consistent capacity total journal := by
  have hunfinished := h.imp fun _ _ he => he.unfinished
  obtain ⟨hcount, hordered⟩ := consumed_of_admitted h
  have hmem : ∀ e ∈ journal, ∃ before after, journal = before ++ e :: after ∧ e.Admitted capacity before := by
    intro e he
    obtain ⟨before, after, hsplit⟩ := List.append_of_mem he
    exact ⟨before, after, hsplit, h before e after hsplit⟩
  -- where the end is told nothing is pending, and no item follows
  have hhanded : (originsOf .consumed journal).Perm (originsOf .produced journal) := by
    obtain ⟨e, he, hk⟩ := List.countP_pos_iff.1 hended
    rw [decide_eq_true_eq] at hk
    obtain ⟨before, after, hsplit, hadmitted⟩ := hmem e he
    rw [List.perm_iff_count]
    intro o
    have hnone := (hadmitted.closing hk).2 o
    rw [Pending, ← (items_before_end hunfinished hsplit hk .consumed (by decide)).1,
      ← (items_before_end hunfinished hsplit hk .produced (by decide)).1] at hnone
    exact Nat.le_antisymm (hcount o) (Nat.le_of_not_lt hnone)
  refine ⟨h.imp fun _ _ he => he.adds.seq, ?_, h.imp fun _ _ he => he.counted, ?_,
    hhanded.nodup_iff.1 (nodup_of_places hordered), hhanded, ?_, hordered, ?_, ?_, htotal⟩
  · obtain ⟨items, ends, hsplit, hitems, hends⟩ := parts_iff.2 hunfinished
    refine ⟨items, ends, hsplit, ?_, hitems, hends⟩
    rintro rfl
    obtain ⟨e, he, hk⟩ := List.countP_pos_iff.1 hended
    rw [hsplit, List.append_nil] at he
    exact hitems e he (by simpa using hk)
  · intro e he hkind
    obtain ⟨before, -, -, hadmitted⟩ := hmem e he
    cases hk : e.kind with
    | produced => exact (hadmitted.put hk).imp fun _ ho => ho.1
    | consumed => exact (hadmitted.taken hk).imp fun _ ho => ho.1
    | completed => exact absurd hk hkind
  · refine h.imp fun before e he hk o ho => ?_
    obtain ⟨x, hx, hpending, -⟩ := he.taken hk
    have hxo : x = o := by
      obtain ⟨hp, hs, -⟩ := hx
      rw [ho.1, Option.some.injEq] at hp
      rw [ho.2.1, Option.some.injEq] at hs
      cases x
      cases o
      simp_all
    exact hxo ▸ List.count_pos_iff.1 (Nat.zero_lt_of_lt hpending)
  · intro e he hk
    obtain ⟨before, after, hsplit, hadmitted⟩ := hmem e he
    rw [(items_before_end hunfinished hsplit hk .produced (by decide)).2]
    exact (hadmitted.closing hk).1
  · intro e he
    obtain ⟨before, -, -, hadmitted⟩ := hmem e he
    exact ⟨hadmitted.adds.le, hadmitted.adds.occupancy, hadmitted.adds.room⟩

/-! ## What is consistent passes -/

namespace Consistent

theorem unfinished (h : Consistent capacity total journal) :
    EachFollows (fun before e => e.kind ≠ .completed → countOf .completed before = 0) journal := by
  obtain ⟨items, ends, hsplit, -, hitems, hends⟩ := h.parts
  exact parts_iff.1 ⟨items, ends, hsplit, hitems, hends⟩

theorem ended (h : Consistent capacity total journal) : 0 < countOf .completed journal := by
  obtain ⟨items, ends, hsplit, hne, -, hends⟩ := h.parts
  obtain ⟨e, rest, rfl⟩ := List.exists_cons_of_ne_nil hne
  exact List.countP_pos_iff.2 ⟨e, by simp [hsplit], by simpa using hends e List.mem_cons_self⟩

theorem not_pending (h : Consistent capacity total journal) {before after : List Event} {e : Event} {o : Origin}
    (hsplit : journal = before ++ e :: after) (hk : e.kind = .produced) (ho : e.Tells o) : ¬ Pending before o := by
  have hcount := List.nodup_iff_count_le_one.1 h.distinct o
  rw [hsplit, ← List.singleton_append, originsOf_append, originsOf_append, originsOf_singleton hk ho,
    List.count_append, List.count_append, List.count_singleton_self] at hcount
  unfold Pending
  omega

theorem pending (h : Consistent capacity total journal) {before after : List Event} {e : Event} {o : Origin}
    (hsplit : journal = before ++ e :: after) (hk : e.kind = .consumed) (ho : e.Tells o) : Pending before o := by
  have hcount := List.nodup_iff_count_le_one.1 (h.handed.nodup_iff.2 h.distinct) o
  rw [hsplit, ← List.singleton_append, originsOf_append, originsOf_append, originsOf_singleton hk ho,
    List.count_append, List.count_append, List.count_singleton_self] at hcount
  have hbefore := List.count_pos_iff.2 (h.later before e after hsplit hk o ho)
  unfold Pending
  omega

/-- The place of an item that is consumed is the number of items of its producer consumed before. -/
theorem sequence_eq (h : Consistent capacity total journal) {before after : List Event} {e : Event} {o : Origin}
    (hsplit : journal = before ++ e :: after) (hk : e.kind = .consumed) (ho : e.Tells o) :
    o.sequence = (placesOf o.producer before).length := by
  have hordered := h.ordered o.producer
  have hplaces : placesOf o.producer journal =
      placesOf o.producer before ++ o.sequence :: placesOf o.producer after := by
    rw [hsplit, ← List.singleton_append, placesOf_append, placesOf_append, placesOf_singleton hk ho, if_pos rfl,
      List.singleton_append]
  have hat : (placesOf o.producer journal)[(placesOf o.producer before).length]? = some o.sequence := by
    simp [hplaces]
  rw [hordered, List.getElem?_range (by simp [hplaces]), Option.some.injEq] at hat
  exact hat.symm

theorem admitted (h : Consistent capacity total journal) : EachFollows (Event.Admitted capacity) journal := by
  intro before e after hsplit
  have hmem : e ∈ journal := by simp [hsplit]
  obtain ⟨hle, hoccupancy, hroom⟩ := h.level e hmem
  refine ⟨⟨h.numbered before e after hsplit, hle, hoccupancy, hroom⟩, h.unfinished before e after hsplit,
    h.counted before e after hsplit, fun hk => ?_, fun hk => ?_, fun hk => ?_⟩
  · obtain ⟨o, ho⟩ := h.told e hmem (by simp [hk])
    exact ⟨o, ho, h.not_pending hsplit hk ho⟩
  · obtain ⟨o, ho⟩ := h.told e hmem (by simp [hk])
    exact ⟨o, ho, h.pending hsplit hk ho, h.sequence_eq hsplit hk ho⟩
  · have hbefore := items_before_end h.unfinished hsplit hk
    refine ⟨(h.closed e hmem hk).trans (hbefore .produced (by decide)).2, fun o hpending => ?_⟩
    rw [Pending, ← (hbefore .produced (by decide)).1, ← (hbefore .consumed (by decide)).1,
      h.handed.count_eq o] at hpending
    exact Nat.lt_irrefl _ hpending

end Consistent

/-- **Exactly the consistent journals pass**, with the totals that they show, for every journal whose length and values
fit in 64 bits. -/
theorem check_iff_consistent (hlength : journal.length < Word.limit)
    (hvalues : ∀ e ∈ journal, ∀ v ∈ e.value, v < Word.limit) (s : Summary) :
    check journal capacity total = .ok s ↔ Consistent capacity total journal ∧ s = Summary.ofJournal journal := by
  rw [check_eq_ok hlength hvalues]
  constructor
  · rintro ⟨hadmitted, hended, htotal, hsummary⟩
    exact ⟨consistent_of_admitted hadmitted hended htotal, hsummary⟩
  · rintro ⟨hconsistent, hsummary⟩
    exact ⟨hconsistent.admitted, hconsistent.ended, hconsistent.total, hsummary⟩

/-- Two producers, whose items come out in another order than they went in, and two watchers. -/
theorem check_iff_consistent_crossed :
    let journal : List Event :=
      [⟨0, .produced, some 0, some 0, some 0, 1, 0, 1⟩, ⟨1, .produced, some 7, some 0, some 700, 2, 0, 2⟩,
        ⟨2, .consumed, some 7, some 0, some 700, 2, 1, 1⟩, ⟨3, .produced, some 7, some 1, some 701, 3, 1, 2⟩,
        ⟨4, .consumed, some 7, some 1, some 701, 3, 2, 1⟩, ⟨5, .consumed, some 0, some 0, some 0, 3, 3, 0⟩,
        ⟨6, .completed, none, none, none, 3, 3, 0⟩, ⟨7, .completed, none, none, none, 3, 3, 0⟩]
    (journal.length < Word.limit ∧ ∀ e ∈ journal, ∀ v ∈ e.value, v < Word.limit) ∧
      check journal (some 2) (some 3) = .ok ⟨3, 3, 2, 2, 2⟩ ∧ Consistent (some 2) (some 3) journal := by
  intro journal
  have hlength : journal.length < Word.limit := by decide
  have hvalues : ∀ e ∈ journal, ∀ v ∈ e.value, v < Word.limit := by decide
  have hok : check journal (some 2) (some 3) = .ok ⟨3, 3, 2, 2, 2⟩ := by decide
  exact ⟨⟨hlength, hvalues⟩, hok, ((check_iff_consistent hlength hvalues _).1 hok).1⟩

end Audit
end Handover
