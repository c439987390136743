import Handover.Proofs.Standing
/-!
# Journal — what the kept events say

A journal that is kept has one entry for each event (`State.Journaled`).  The items that were consumed and those that
are in the ring are, in this order, the items that were produced.  The ends that watchers recorded come last, because
they are recorded only when everything was consumed.
-/
namespace Handover

/-- The items of the events of one kind. -/
def itemsOf (kind : Kind) (journal : List Event) : List Item :=
  (journal.filter (·.kind = kind)).filterMap Event.item?

theorem itemsOf_append (kind : Kind) (j₁ j₂ : List Event) :
    itemsOf kind (j₁ ++ j₂) = itemsOf kind j₁ ++ itemsOf kind j₂ := by
  unfold itemsOf
  rw [List.filter_append, List.filterMap_append]

theorem itemsOf_singleton (s : State) (kind told : Kind) (item : Option Item) :
    itemsOf kind [s.eventNow told item] = if told = kind then item.toList else [] := by
  by_cases h : told = kind
  · subst h
    rw [if_pos rfl]
    cases item <;> simp [itemsOf, State.eventNow, Event.item?]
  · rw [if_neg h]
    simp [itemsOf, State.eventNow, h]

def countOf (kind : Kind) (journal : List Event) : Nat := journal.countP (·.kind = kind)

theorem countOf_append (kind : Kind) (j₁ j₂ : List Event) :
    countOf kind (j₁ ++ j₂) = countOf kind j₁ + countOf kind j₂ := List.countP_append

theorem countOf_singleton (kind : Kind) (e : Event) : countOf kind [e] = if e.kind = kind then 1 else 0 := by
  simp [countOf, List.countP_cons]

/-- **Every event of a journal is as `P` says**, given the events before it. -/
def EachFollows (P : List Event → Event → Prop) (journal : List Event) : Prop :=
  ∀ before e after, journal = before ++ e :: after → P before e

theorem eachFollows_nil (P : List Event → Event → Prop) : EachFollows P [] := by
  intro before e after h
  simp at h

theorem eachFollows_concat {P : List Event → Event → Prop} {journal : List Event} {e : Event} :
    EachFollows P (journal ++ [e]) ↔ EachFollows P journal ∧ P journal e := by
  constructor
  · intro h
    refine ⟨fun before x after hj => h before x (after ++ [e]) ?_, h journal e [] rfl⟩
    rw [hj, List.append_assoc, List.cons_append]
  · rintro ⟨h, he⟩ before x after hj
    rcases List.eq_nil_or_concat after with rfl | ⟨init, y, rfl⟩
    · obtain ⟨rfl, hx⟩ := List.append_inj' hj rfl
      cases hx
      exact he
    · rw [List.concat_eq_append, ← List.cons_append, ← List.append_assoc] at hj
      exact h before x init (List.append_inj' hj rfl).1

namespace State

variable {c : Config} {s : State}

theorem journal_recorded (s : State) (kind : Kind) (item : Option Item) (hkeep : s.keepJournal = true) :
    (s.recorded kind item).journal = s.journal ++ [s.eventNow kind item] := by
  simp only [journal, recorded, hkeep, if_true, List.reverse_cons]

/-- **What the kept events say.** -/
structure Journaled (c : Config) (s : State) : Prop where
  length : s.journal.length = s.events
  told : ∀ e ∈ s.journal, e.kind ≠ .completed → e.item?.isSome = true
  queue : itemsOf .consumed s.journal ++ s.buffer.toList = itemsOf .produced s.journal
  ends : ∃ items ends, s.journal = items ++ ends ∧ (∀ e ∈ items, e.kind ≠ .completed) ∧
    (∀ e ∈ ends, e.kind = .completed) ∧ (ends ≠ [] → s.consumed = c.totalItems)

namespace Journaled

/-- An entry about an item goes behind the others, as long as something is left to consume. -/
theorem ends_of_item (h : s.Journaled c) (hleft : s.consumed < c.totalItems) {e : Event} (he : e.kind ≠ .completed)
    {n : Nat} : ∃ items ends, s.journal ++ [e] = items ++ ends ∧ (∀ e ∈ items, e.kind ≠ .completed) ∧
      (∀ e ∈ ends, e.kind = .completed) ∧ (ends ≠ [] → n = c.totalItems) := by
  obtain ⟨items, ends, hj, hitems, -, hall⟩ := h.ends
  have hnone : ends = [] := by
    cases ends with
    | nil => rfl
    | cons x xs =>
      have := hall (by simp)
      omega
  subst hnone
  refine ⟨items ++ [e], [], by rw [hj, List.append_nil, List.append_nil], ?_, by simp, by simp⟩
  intro x hx
  rcases List.mem_append.1 hx with hx | hx
  · exact hitems x hx
  · rw [List.mem_singleton.1 hx]; exact he

theorem told_append (h : s.Journaled c) (kind : Kind) (item : Option Item) (t : State)
    (hitem : kind ≠ .completed → item.isSome = true) :
    ∀ e ∈ s.journal ++ [t.eventNow kind item], e.kind ≠ .completed → e.item?.isSome = true := by
  intro e he hkind
  rcases List.mem_append.1 he with he | he
  · exact h.told e he hkind
  · rw [List.mem_singleton.1 he] at hkind ⊢
    obtain ⟨i, hi⟩ := Option.isSome_iff_exists.1 (hitem hkind)
    rw [hi]
    rfl

theorem handedIn (h : s.Journaled c) (hkeep : s.keepJournal = true) (hleft : s.consumed < c.totalItems)
    {item : Item} {b : Buffer Item} (hb : b.toList = s.buffer.toList ++ [item]) :
    (s.handedIn c.totalItems item b).Journaled c ∧
      itemsOf .produced (s.handedIn c.totalItems item b).journal = itemsOf .produced s.journal ++ [item] := by
  have hj : (s.handedIn c.totalItems item b).journal = s.journal ++ [State.eventNow _ .produced (some item)] :=
    journal_recorded _ .produced (some item) hkeep
  have hitems : itemsOf .produced (s.handedIn c.totalItems item b).journal = itemsOf .produced s.journal ++ [item] := by
    rw [hj, itemsOf_append, itemsOf_singleton, if_pos rfl]
    rfl
  refine ⟨⟨?_, ?_, ?_, ?_⟩, hitems⟩
  · rw [hj, List.length_append, h.length]; rfl
  · rw [hj]; exact h.told_append _ _ _ (fun _ => rfl)
  · rw [hitems, ← h.queue, hj, itemsOf_append, itemsOf_singleton, if_neg (by decide), List.append_nil,
      List.append_assoc, ← hb]
    rfl
  · rw [hj]; exact h.ends_of_item hleft (by intro hkind; cases hkind)

theorem takenOut (h : s.Journaled c) (hkeep : s.keepJournal = true) (hleft : s.consumed < c.totalItems)
    {item : Item} {b : Buffer Item} (hb : s.buffer.toList = item :: b.toList) :
    (s.takenOut c.totalItems item b).Journaled c ∧
      itemsOf .produced (s.takenOut c.totalItems item b).journal = itemsOf .produced s.journal := by
  have hj : (s.takenOut c.totalItems item b).journal = s.journal ++ [State.eventNow _ .consumed (some item)] :=
    journal_recorded _ .consumed (some item) hkeep
  have hitems : itemsOf .produced (s.takenOut c.totalItems item b).journal = itemsOf .produced s.journal := by
    rw [hj, itemsOf_append, itemsOf_singleton, if_neg (by decide), List.append_nil]
  refine ⟨⟨?_, ?_, ?_, ?_⟩, hitems⟩
  · rw [hj, List.length_append, h.length]; rfl
  · rw [hj]; exact h.told_append _ _ _ (fun _ => rfl)
  · rw [hitems, ← h.queue, hj, itemsOf_append, itemsOf_singleton, if_pos rfl, hb, List.append_assoc]
    rfl
  · rw [hj]; exact h.ends_of_item hleft (by intro hkind; cases hkind)

theorem announced (h : s.Journaled c) (hkeep : s.keepJournal = true) (hall : s.consumed = c.totalItems) :
    s.announced.Journaled c ∧ itemsOf .produced s.announced.journal = itemsOf .produced s.journal := by
  have hj : s.announced.journal = s.journal ++ [s.eventNow .completed none] :=
    journal_recorded _ .completed none hkeep
  have hitems (kind : Kind) : itemsOf kind s.announced.journal = itemsOf kind s.journal := by
    rw [hj, itemsOf_append, itemsOf_singleton]
    split <;> exact List.append_nil _
  refine ⟨⟨?_, ?_, ?_, ?_⟩, hitems _⟩
  · rw [hj, List.length_append, h.length]; rfl
  · rw [hj]; exact h.told_append _ _ _ (fun hno => absurd rfl hno)
  · rw [hitems, hitems]; exact h.queue
  · obtain ⟨items, ends, hjournal, hitem, hend, -⟩ := h.ends
    refine ⟨items, ends ++ [s.eventNow .completed none], by rw [hj, hjournal, List.append_assoc], hitem, ?_,
      fun _ => hall⟩
    intro e he
    rcases List.mem_append.1 he with he | he
    · exact hend e he
    · rw [List.mem_singleton.1 he]; rfl

end Journaled
end State

def Effect.handed : Effect → List Item
  | handIn item => [item]
  | _ => []

/-- **An effect on a kept journal**, where there is room for what it hands in and an item for what it takes out. -/
theorem Effect.Leads.journaled {m m' : Monitor} {e : Effect} {c : Config} (h : e.Leads m m') (hc : m.config = c)
    (hcoherent : m.state.Coherent c)
    (hin : e.insertions = 1 → m.state.buffer.len < c.capacity ∧ m.state.produced < c.totalItems)
    (hout : e.removals = 1 → 0 < m.state.buffer.len) (hkeep : c.journal = true) (hj : m.state.Journaled c) :
    m'.state.Journaled c ∧ itemsOf .produced m'.state.journal = itemsOf .produced m.state.journal ++ e.handed := by
  have htotal := Monitor.totalItems_eq hc
  have hlevel := hcoherent.level
  have hbound := hcoherent.bound
  have hkeep' : m.state.keepJournal = true := hcoherent.keep.trans hkeep
  cases e with
  | quiet | take | post => rw [h.1]; exact ⟨hj, (List.append_nil _).symm⟩
  | handIn item =>
    obtain ⟨-, -, b, hb, hs⟩ := h
    obtain ⟨hroom, hleft⟩ := hin rfl
    rw [hs, htotal]
    exact hj.handedIn hkeep' (by omega) (hcoherent.handedIn hb hroom hleft).2
  | takeOut =>
    obtain ⟨-, -, item, b, hb, hs⟩ := h
    have hitem := hout rfl
    rw [hs, htotal]
    obtain ⟨hj', hitems⟩ := hj.takenOut hkeep' (by omega) (hcoherent.takenOut hb hitem).2.1
    exact ⟨hj', hitems.trans (List.append_nil _).symm⟩
  | announce =>
    rw [h.2.2.2]
    obtain ⟨hj', hitems⟩ := hj.announced hkeep' (hcoherent.consumed_eq_of_done h.2.2.1 h.2.1)
    exact ⟨hj', hitems.trans (List.append_nil _).symm⟩
  | mark =>
    rw [h.2.2]
    exact ⟨⟨hj.length, hj.told, hj.queue, hj.ends⟩, (List.append_nil _).symm⟩

theorem Effect.Leads.trail_nil {m m' : Monitor} {e : Effect} (h : e.Leads m m') (hkeep : m.state.keepJournal = false)
    (hnil : m.state.trail = []) : m'.state.trail = [] := by
  cases e with
  | quiet | take | post => rw [h.1]; exact hnil
  | handIn item =>
    obtain ⟨-, -, b, -, hs⟩ := h
    rw [hs]
    simp [State.handedIn, State.recorded, hkeep, hnil]
  | takeOut =>
    obtain ⟨-, -, item, b, -, hs⟩ := h
    rw [hs]
    simp [State.takenOut, State.recorded, hkeep, hnil]
  | announce =>
    rw [h.2.2.2]
    simp [State.announced, State.recorded, hkeep, hnil]
  | mark => rw [h.2.2]; exact hnil

end Handover
