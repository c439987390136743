import Handover.Proofs.Backlog
/-!
# Tampering — a journal that passes cannot be changed in one place

Most fields of an event are fixed by the events before it and by its other fields, so an event that differs in one of
them is not admitted there.  The kind is different: an item that is put in where nothing is pending can pass for the
end, and the end can pass for such an item if it carries the fields of one.  What gives such a change away comes later.
Every event of the end names the number of items that were produced, and that number has changed (`Consistent.kind_ne`).
-/
namespace Handover

/-- **One field of an event has another value.**  What an event of the end says about an item does not count, since it
is about none. -/
inductive Event.Tampers (e : Event) : Event → Prop where
  | seq {n : Nat} : n ≠ e.seq → Tampers e { e with seq := n }
  | kind {k : Kind} : k ≠ e.kind → Tampers e { e with kind := k }
  | produced {n : Nat} : n ≠ e.produced → Tampers e { e with produced := n }
  | consumed {n : Nat} : n ≠ e.consumed → Tampers e { e with consumed := n }
  | occupancy {n : Nat} : n ≠ e.occupancy → Tampers e { e with occupancy := n }
  | producer {p : Option Nat} : e.kind ≠ .completed → p ≠ e.producer → Tampers e { e with producer := p }
  | sequence {n : Option Nat} : e.kind ≠ .completed → n ≠ e.sequence → Tampers e { e with sequence := n }
  | value {v : Option Nat} : e.kind ≠ .completed → v ≠ e.value → Tampers e { e with value := v }

theorem Event.Admitted.tells {capacity : Option Nat} {before : List Event} {e : Event} (h : e.Admitted capacity before)
    (hk : e.kind ≠ .completed) : ∃ o, e.Tells o := by
  cases hkind : e.kind with
  | produced => exact (h.put hkind).imp fun _ ho => ho.1
  | consumed => exact (h.taken hkind).imp fun _ ho => ho.1
  | completed => exact absurd hkind hk

namespace Audit

variable {capacity total : Option Nat} {before after : List Event} {e e' : Event}

/-- **The end does not pass for an item that is put in, nor the other way round.**  Somewhere after it the end is told,
with the number of items produced, and one of the two journals has produced one item more. -/
theorem Consistent.kind_ne (h : Consistent capacity total (before ++ e :: after))
    (h' : Consistent capacity total (before ++ e' :: after)) (hk : e.kind = .completed) : e'.kind ≠ .produced := by
  intro hk'
  have hlater : ∃ x ∈ after, x.kind = .completed := by
    obtain ⟨x, hx, hx'⟩ := List.countP_pos_iff.1 h'.ended
    rw [decide_eq_true_eq] at hx'
    have hnone := List.countP_eq_zero.1 (h'.unfinished before e' after rfl (by simp [hk']))
    rcases List.mem_append.1 hx with hx | hx
    · exact absurd (decide_eq_true hx') (hnone x hx)
    · rcases List.mem_cons.1 hx with rfl | hx
      · rw [hk'] at hx'
        cases hx'
      · exact ⟨x, hx, hx'⟩
  obtain ⟨x, hx, hkx⟩ := hlater
  have htold := h.closed x (by simp [hx]) hkx
  have htold' := h'.closed x (by simp [hx]) hkx
  rw [← List.singleton_append, countOf_append, countOf_append, countOf_singleton] at htold htold'
  simp only [hk, hk', reduceCtorEq, if_false, if_true] at htold htold'
  omega

theorem Consistent.kind_eq (h : Consistent capacity total (before ++ e :: after)) {k : Kind}
    (h' : Consistent capacity total (before ++ { e with kind := k } :: after)) : k = e.kind := by
  have he := h.admitted before e after rfl
  have he' := h'.admitted before _ after rfl
  by_contra hne
  cases hk : e.kind with
  | produced =>
    cases k with
    | produced => exact hne hk.symm
    | consumed =>
      have hcount := (he.counted (by simp [hk])).1
      have hcount' := (he'.counted nofun).1
      simp [countOf_append, countOf_singleton, hk] at hcount hcount'
      omega
    | completed => exact h'.kind_ne h rfl hk
  | consumed =>
    cases k with
    | produced =>
      have hcount := (he.counted (by simp [hk])).1
      have hcount' := (he'.counted nofun).1
      simp [countOf_append, countOf_singleton, hk] at hcount hcount'
      omega
    | consumed => exact hne hk.symm
    | completed =>
      obtain ⟨o, -, hpending, -⟩ := he.taken hk
      exact (he'.closing rfl).2 o hpending
  | completed =>
    cases k with
    | produced => exact h.kind_ne h' hk rfl
    | consumed =>
      obtain ⟨o, -, hpending, -⟩ := he'.taken rfl
      exact (he.closing hk).2 o hpending
    | completed => exact hne hk.symm

/-- **Two journals that differ in one field of one event are not both consistent.** -/
theorem Consistent.not_tampered (h : Consistent capacity total (before ++ e :: after)) (ht : e.Tampers e') :
    ¬ Consistent capacity total (before ++ e' :: after) := by
  intro h'
  have he := h.admitted before e after rfl
  have he' := h'.admitted before e' after rfl
  obtain ⟨hseq, hle, hoccupancy, -⟩ := he.adds
  obtain ⟨hseq', hle', hoccupancy', -⟩ := he'.adds
  cases ht with
  | seq hne => exact hne (hseq'.trans hseq.symm)
  | kind hne => exact hne (h.kind_eq h')
  | produced hne =>
    simp only at hle' hoccupancy'
    omega
  | consumed hne =>
    simp only at hle' hoccupancy'
    omega
  | occupancy hne => exact hne (hoccupancy'.trans hoccupancy.symm)
  | producer hk hne =>
    obtain ⟨o, hp, hs, hv⟩ := he.tells hk
    obtain ⟨o', hp', hs', hv'⟩ := he'.tells hk
    simp only [hs, hv, Option.some.injEq, Item.valueOf] at hs' hv'
    refine hne (hp'.trans ?_)
    rw [hp, Option.some.injEq]
    omega
  | sequence hk hne =>
    obtain ⟨o, hp, hs, hv⟩ := he.tells hk
    obtain ⟨o', hp', hs', hv'⟩ := he'.tells hk
    simp only [hp, hv, Option.some.injEq, Item.valueOf] at hp' hv'
    refine hne (hs'.trans ?_)
    rw [hs, Option.some.injEq]
    omega
  | value hk hne =>
    obtain ⟨o, hp, hs, hv⟩ := he.tells hk
    obtain ⟨o', hp', hs', hv'⟩ := he'.tells hk
    simp only [hp, hs, Option.some.injEq] at hp' hs'
    refine hne (hv'.trans ?_)
    rw [hv, hp', hs']

/-! ## What an event of the end says about an item -/

theorem Ledger.enter_of_end {l : Ledger} {index : Nat} (hk : e.kind = .completed) (p n v : Option Nat) :
    l.enter capacity index { e with producer := p, sequence := n, value := v } = l.enter capacity index e := by
  unfold enter
  simp only [hk]
  rfl

theorem Ledger.enterAll_congr (h : ∀ (l : Ledger) index, l.enter capacity index e' = l.enter capacity index e) :
    ∀ (before : List Event) (l : Ledger) (index : Nat),
      l.enterAll capacity index (before ++ e' :: after) = l.enterAll capacity index (before ++ e :: after)
  | [], l, index => by
    rw [List.nil_append, List.nil_append, enterAll, enterAll, h]
  | x :: before, l, index => by
    rw [List.cons_append, List.cons_append, enterAll, enterAll]
    cases l.enter capacity index x with
    | error f => rfl
    | ok l₁ => exact enterAll_congr h before l₁ (index + 1)

/-- **A journal that passes no longer does after a change of one field of one event**, whatever the field and the value,
and with the same capacity and total.  The item fields of an event of the end are the exception: with any others in
their place the journal passes as before. -/
theorem tampering_never_passes {journal : List Event} {s : Summary} (hok : check journal capacity total = .ok s)
    {i : Nat} (hi : journal[i]? = some e) :
    (∀ e', e.Tampers e' → ∀ s', check (journal.set i e') capacity total ≠ .ok s') ∧
    (e.kind = .completed → ∀ p n v,
      check (journal.set i { e with producer := p, sequence := n, value := v }) capacity total = .ok s) := by
  obtain ⟨hlt, rfl⟩ := List.getElem?_eq_some_iff.1 hi
  have hsplit : journal = journal.take i ++ journal[i] :: journal.drop (i + 1) := by
    rw [List.getElem_cons_drop, List.take_append_drop]
  have hset (x : Event) : journal.set i x = journal.take i ++ x :: journal.drop (i + 1) :=
    List.set_eq_take_append_cons_drop.trans (if_pos hlt)
  refine ⟨fun e' ht s' hok' => ?_, fun hk p n v => ?_⟩
  · obtain ⟨hadmitted, hended, htotal, -⟩ := admitted_of_check hok
    obtain ⟨hadmitted', hended', htotal', -⟩ := admitted_of_check hok'
    have h := consistent_of_admitted hadmitted hended htotal
    have h' := consistent_of_admitted hadmitted' hended' htotal'
    rw [hsplit] at h
    rw [hset] at h'
    exact h.not_tampered ht h'
  · rw [hset]
    unfold check
    rw [Ledger.enterAll_congr fun l index => Ledger.enter_of_end hk p n v, ← hsplit]
    exact hok

/-- The third event passes where it stands as an end, since nothing is pending there, and the fifth passes as an item
that is put in.  Both changes are found out later. -/
theorem tampering_never_passes_late :
    let put : Event := ⟨2, .produced, some 0, some 1, some 1, 2, 1, 1⟩
    let told : Event := ⟨4, .completed, some 0, some 2, some 2, 3, 2, 1⟩
    let journal : List Event :=
      [⟨0, .produced, some 0, some 0, some 0, 1, 0, 1⟩, ⟨1, .consumed, some 0, some 0, some 0, 1, 1, 0⟩, put,
        ⟨3, .consumed, some 0, some 1, some 1, 2, 2, 0⟩, told, ⟨5, .completed, none, none, none, 2, 2, 0⟩]
    check journal (some 1) (some 2) = .ok ⟨2, 2, 2, 1, 1⟩ ∧
      ((journal[2]? = some put ∧ put.Tampers { put with kind := .completed }) ∧
        ∀ s', check (journal.set 2 { put with kind := .completed }) (some 1) (some 2) ≠ .ok s') ∧
      ((journal[4]? = some told ∧ told.Tampers { told with kind := .produced }) ∧
        ∀ s', check (journal.set 4 { told with kind := .produced }) (some 1) (some 2) ≠ .ok s') ∧
      check (journal.set 4 { told with producer := some 9, sequence := none, value := some 7 }) (some 1) (some 2) =
        .ok ⟨2, 2, 2, 1, 1⟩ := by
  intro put told journal
  have hok : check journal (some 1) (some 2) = .ok ⟨2, 2, 2, 1, 1⟩ := by decide
  have hput : put.Tampers { put with kind := .completed } := .kind nofun
  have htold : told.Tampers { told with kind := .produced } := .kind nofun
  obtain ⟨hfound, -⟩ := tampering_never_passes hok (i := 2) (e := put) rfl
  obtain ⟨hfound', hexempt⟩ := tampering_never_passes hok (i := 4) (e := told) rfl
  exact ⟨hok, ⟨⟨rfl, hput⟩, hfound _ hput⟩, ⟨⟨rfl, htold⟩, hfound' _ htold⟩, hexempt rfl _ _ _⟩

end Audit
end Handover
