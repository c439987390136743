import Handover.Proofs.Order
/-!
# Chronicle — what the state and the journal say agrees, all through a run

A kept journal is a chronicle: each entry is numbered by the entries before it, counts the items up to and including
itself, and shows how many of them are in the ring (`Event.TrueAfter`).  The entry is written in the critical section
that it tells of, so it is enough that the state that writes it agrees with itself (`Chronicled.recorded`).  A phase
follows from the counters alone, and one step moves one counter by one, so a phase is left only for the next one.
-/
namespace Handover

theorem length_eq_countOf (journal : List Event) :
    journal.length = countOf .produced journal + countOf .consumed journal + countOf .completed journal := by
  induction journal with
  | nil => rfl
  | cons e journal ih =>
    unfold countOf at ih ⊢
    rw [List.length_cons, List.countP_cons, List.countP_cons, List.countP_cons]
    cases e.kind <;> simp <;> omega

/-- **What an entry says is true**, given the entries before it. -/
structure Event.TrueAfter (c : Config) (before : List Event) (e : Event) : Prop where
  seq : e.seq = before.length
  produced : e.produced = countOf .produced (before ++ [e])
  consumed : e.consumed = countOf .consumed (before ++ [e])
  level : e.produced = e.consumed + e.occupancy
  room : e.occupancy ≤ c.capacity
  filled : e.kind = .produced → 0 < e.occupancy
  came : e.kind = .consumed → ∀ i, e.item? = some i → i ∈ itemsOf .produced before
  closing : e.kind = .completed → e.consumed = c.totalItems ∧ e.item? = none
  parts : e.producer = e.item?.map Item.producer ∧ e.sequence = e.item?.map Item.sequence ∧
    e.value = e.item?.map Item.value

namespace State

variable {c : Config} {s : State}

/-- **A kept journal tells of every event, and what it tells is true.** -/
structure Chronicled (c : Config) (s : State) : Prop where
  length : s.journal.length = s.events
  produced : countOf .produced s.journal = s.produced
  consumed : countOf .consumed s.journal = s.consumed
  entries : EachFollows (Event.TrueAfter c) s.journal

theorem Chronicled.fresh (c : Config) : (State.fresh c).Chronicled c := ⟨rfl, rfl, rfl, eachFollows_nil _⟩

/-- The state has counted what it is about to record, and the journal has not. -/
theorem Chronicled.recorded {kind : Kind} {item : Option Item} (hkeep : s.keepJournal = true)
    (hlength : s.journal.length = s.events)
    (hproduced : s.produced = countOf .produced s.journal + if kind = .produced then 1 else 0)
    (hconsumed : s.consumed = countOf .consumed s.journal + if kind = .consumed then 1 else 0)
    (hentries : EachFollows (Event.TrueAfter c) s.journal) (hlevel : s.produced = s.consumed + s.buffer.len)
    (hroom : s.buffer.len ≤ c.capacity) (hfilled : kind = .produced → 0 < s.buffer.len)
    (hcame : kind = .consumed → ∀ i, item = some i → i ∈ itemsOf .produced s.journal)
    (hclosing : kind = .completed → s.consumed = c.totalItems ∧ item = none) : (s.recorded kind item).Chronicled c := by
  have hitem : (s.eventNow kind item).item? = item := by cases item <;> rfl
  have hj := journal_recorded s kind item hkeep
  have hp : countOf .produced (s.journal ++ [s.eventNow kind item]) = s.produced := by
    rw [countOf_append, countOf_singleton]
    exact hproduced.symm
  have hc : countOf .consumed (s.journal ++ [s.eventNow kind item]) = s.consumed := by
    rw [countOf_append, countOf_singleton]
    exact hconsumed.symm
  refine ⟨?_, hj.symm ▸ hp, hj.symm ▸ hc, ?_⟩
  · rw [hj, List.length_append, hlength]
    rfl
  · rw [hj, eachFollows_concat]
    exact ⟨hentries, hlength.symm, hp.symm, hc.symm, hlevel, hroom, hfilled, by rw [hitem]; exact hcame,
      by rw [hitem]; exact hclosing, by rw [hitem]; exact ⟨rfl, rfl, rfl⟩⟩

end State

/-- **An effect on a chronicle**, where there is room for what it hands in and an item for what it takes out. -/
theorem Effect.Leads.chronicled {m m' : Monitor} {e : Effect} {c : Config} (h : e.Leads m m') (hc : m.config = c)
    (hcoherent : m.state.Coherent c)
    (hin : e.insertions = 1 → m.state.buffer.len < c.capacity ∧ m.state.produced < c.totalItems)
    (hout : e.removals = 1 → 0 < m.state.buffer.len) (hkeep : c.journal = true) (hj : m.state.Journaled c)
    (hch : m.state.Chronicled c) : m'.state.Chronicled c := by
  have hkeep' : m.state.keepJournal = true := hcoherent.keep.trans hkeep
  have hcoherent' := h.coherent hc hcoherent hin hout
  have hlevel' := hcoherent'.level
  have hroom' := hcoherent'.len_le
  cases e with
  | quiet | take | post => rw [h.1]; exact hch
  | handIn item =>
    obtain ⟨-, -, b, hb, hs⟩ := h
    rw [hs] at hlevel' hroom' ⊢
    refine .recorded hkeep' hch.length ?_ ?_ hch.entries hlevel' hroom' (fun _ => ?_) nofun nofun
    · change m.state.produced + 1 = countOf .produced m.state.journal + 1
      rw [hch.produced]
    · exact hch.consumed.symm
    · change 0 < b.len
      rw [Buffer.len_insert hb]
      exact Nat.succ_pos _
  | takeOut =>
    obtain ⟨-, -, item, b, hb, hs⟩ := h
    have hqueue := (hcoherent.takenOut hb (hout rfl)).2.1
    rw [hs] at hlevel' hroom' ⊢
    refine .recorded hkeep' hch.length hch.produced.symm ?_ hch.entries hlevel' hroom' nofun (fun _ i hi => ?_) nofun
    · change m.state.consumed + 1 = countOf .consumed m.state.journal + 1
      rw [hch.consumed]
    · -- what comes out was in the ring, and what is in the ring was produced
      cases hi
      change item ∈ itemsOf .produced m.state.journal
      rw [← hj.queue, hqueue]
      simp
  | announce =>
    rw [h.2.2.2] at hlevel' hroom' ⊢
    exact .recorded hkeep' hch.length hch.produced.symm hch.consumed.symm hch.entries hlevel' hroom' nofun nofun
      (fun _ => ⟨hcoherent.consumed_eq_of_done h.2.2.1 h.2.1, rfl⟩)
  | mark =>
    rw [h.2.2]
    exact ⟨hch.length, hch.produced, hch.consumed, hch.entries⟩

/-! ## One phase after the other -/

namespace Phase

theorem reached_iff (total produced consumed : Nat) (h : consumed ≤ produced) (h' : produced ≤ total) :
    (reached total produced consumed = .running ↔ produced < total) ∧
      (reached total produced consumed = .draining ↔ produced = total ∧ consumed < total) ∧
      (reached total produced consumed = .complete ↔ consumed = total) := by
  unfold reached
  by_cases hc : consumed = total
  · simp [hc]
    omega
  · by_cases hp : produced = total
    · simp [hc, hp]
      omega
    · simp [hc, hp]
      omega

/-- One more item in, or one more out, and the phase is the same or the next one. -/
theorem reached_next {total produced consumed i o : Nat} (hle : consumed + o ≤ produced + i)
    (hbound : produced + i ≤ total)
    (hone : i + o ≤ 1) (hlevel : consumed ≤ produced) :
    reached total (produced + i) (consumed + o) = reached total produced consumed ∨
      (reached total produced consumed).next? = some (reached total (produced + i) (consumed + o)) := by
  obtain ⟨rfl, rfl⟩ | ⟨rfl, rfl⟩ | ⟨rfl, rfl⟩ : i = 0 ∧ o = 0 ∨ i = 1 ∧ o = 0 ∨ i = 0 ∧ o = 1 := by omega
  · exact .inl rfl
  · have hc : consumed ≠ total := by omega
    have hp : produced ≠ total := by omega
    by_cases hlast : produced + 1 = total
    · simp [reached, hc, hp, hlast, next?]
    · simp [reached, hc, hp, hlast]
  · have hc : consumed ≠ total := by omega
    by_cases hlast : consumed + 1 = total
    · have hp : produced = total := by omega
      simp [reached, hc, hp, hlast, next?]
    · simp [reached, hc, hlast]

end Phase

namespace System

variable {c : Config} {s s' : System} {i : Nat}

theorem Sound.step_phase (hs : s.Sound c) (hc : c.Fits) (h : s.step i = some s') :
    s'.monitor.state.phase = s.monitor.state.phase ∨
      s.monitor.state.phase.next? = some s'.monitor.state.phase := by
  have hs' := (hs.step hc h).coherent
  obtain ⟨a, a', -, -, -, ⟨-, e, -, he⟩ | ⟨-, hfault⟩⟩ := hs.step_cases hc h
  · obtain ⟨hproduced, hconsumed, -⟩ := he.numbers
    have hone : e.insertions + e.removals ≤ 1 := by cases e <;> simp [Effect.insertions, Effect.removals]
    have hlevel := hs.coherent.level
    have hlevel' := hs'.level
    have hbound' := hs'.bound
    rw [hproduced, hconsumed] at hlevel'
    rw [hproduced] at hbound'
    rw [hs'.phase, hs.coherent.phase, hproduced, hconsumed]
    exact Phase.reached_next (by omega) hbound' hone (by omega)
  · left
    rw [hfault.state]

theorem filterMap_sublist {β : Type} {f g : Agent → Option β} : ∀ l : List Agent,
    (∀ a ∈ l, ∀ b, f a = some b → g a = some b) → (l.filterMap f).Sublist (l.filterMap g)
  | [], _ => .slnil
  | a :: l, h => by
    have ih := filterMap_sublist l fun x hx => h x (List.mem_cons_of_mem _ hx)
    cases hf : f a with
    | some b =>
      rw [List.filterMap_cons_some hf, List.filterMap_cons_some (h a List.mem_cons_self b hf)]
      exact ih.cons_cons b
    | none =>
      rw [List.filterMap_cons_none hf]
      cases hg : g a with
      | none => rwa [List.filterMap_cons_none hg]
      | some b => rw [List.filterMap_cons_some hg]; exact ih.cons b

/-- **No watcher reports twice.** -/
theorem Sound.reporters_nodup (hs : s.Sound c) : (s.reports.map Completion.watcher).Nodup := by
  have hnames : (s.reports.map (AgentName.watcher ∘ Completion.watcher)).Sublist s.names := by
    unfold reports names
    rw [List.map_filterMap]
    refine filterMap_sublist _ fun a ha name hname => ?_
    obtain ⟨r, hr, rfl⟩ := Option.map_eq_some_iff.1 hname
    have hstands := hs.stands a ha
    cases a with
    | watcher id place =>
      cases place with
      | finished report =>
        cases hr
        rw [Function.comp_apply, hstands.2.1]
        rfl
      | gate | waiting | failing | faulted | crashed => cases hr
    | producer | consumer | starter | finisher | breaker => cases hr
  rw [← List.map_map] at hnames
  exact (hs.nodup.sublist hnames).of_map

end System

namespace Run

variable {c : Config} {calls : Nat} {r r' : Run}

theorem Underway.step_phase (hu : r.Underway c calls) (hc : c.Fits) {who : Option Nat} (h : r.step who = some r') :
    r'.system.monitor.state.phase = r.system.monitor.state.phase ∨
      r.system.monitor.state.phase.next? = some r'.system.monitor.state.phase := by
  cases who with
  | none =>
    rcases hu.launch_cases h with ⟨name, log, -, -, rfl⟩ | ⟨log, -, rfl⟩
    · exact .inl rfl
    · exact .inl rfl
  | some i =>
    obtain ⟨s, hs, rfl⟩ := Option.map_eq_some_iff.1 h
    exact hu.sound.step_phase hc hs

/-- **All through a run a kept journal is a chronicle.** -/
theorem exec_chronicled (hc : c.Fits) (hkeep : c.journal = true) (calls : Nat) (schedule : List (Option Nat))
    {r₀ : Run} (hstart : Run.start c [] = .ok r₀) (hexec : (r₀.withCalls calls).exec schedule = some r) :
    r.system.monitor.state.Journaled c ∧ r.system.monitor.state.Chronicled c := by
  refine Underway.exec_state (P := fun s => s.Journaled c ∧ s.Chronicled c) hc ?_ ?_ schedule
    (Underway.start hc hstart calls) ⟨(start_keepsOrder hc hstart calls).journal, ?_⟩ hexec
  · rintro s ⟨hj, hch⟩
    exact ⟨⟨hj.length, hj.told, hj.queue, hj.ends⟩, hch.length, hch.produced, hch.consumed, hch.entries⟩
  · rintro m m' e he hconfig hcoherent hin hout ⟨hj, hch⟩
    exact ⟨(he.journaled hconfig hcoherent hin hout hkeep hj).1,
      he.chronicled hconfig hcoherent hin hout hkeep hj hch⟩
  · rw [start_ok hc.valid, Except.ok.injEq] at hstart
    subst hstart
    exact .fresh c

/-- **The state agrees with itself at every moment.**  In every state of a run, under every schedule of the launcher,
the agents and the calls from outside that fail the run: the phase follows from the counters, and a step leaves it or
moves it to the next one; the counters differ by what is in the ring, which is never more than its capacity; the
completion latch is open exactly if the run is complete or failed, and the run is done exactly if it is complete and not
failed; there is one event for each item produced, for each item consumed and for each watcher that has reported, which
no watcher does twice; and a kept journal has one entry for each event, numbered from zero, with the numbers of items
produced and consumed up to and including itself and their difference, and entries of the end only when everything was
consumed. -/
theorem coherent_at_every_moment (hc : c.Fits) (calls : Nat) (schedule : List (Option Nat)) {r₀ r : Run}
    (hstart : Run.start c [] = .ok r₀) (hexec : (r₀.withCalls calls).exec schedule = some r) :
    let s := r.system.monitor.state
    ((s.phase = .running ↔ s.produced < c.totalItems) ∧
      (s.phase = .draining ↔ s.produced = c.totalItems ∧ s.consumed < c.totalItems) ∧
      (s.phase = .complete ↔ s.consumed = c.totalItems)) ∧
    (∀ who r', r.step who = some r' →
      r'.system.monitor.state.phase = s.phase ∨ s.phase.next? = some r'.system.monitor.state.phase) ∧
    (s.consumed ≤ s.produced ∧ s.produced - s.consumed = s.buffer.len ∧ s.buffer.len ≤ c.capacity) ∧
    ((s.done = true ↔ s.phase = .complete ∨ s.failed = true) ∧
      (s.isDone = true ↔ s.phase = .complete ∧ s.failed = false)) ∧
    (s.events = s.produced + s.consumed + r.system.reports.length ∧
      (r.system.reports.map Completion.watcher).Nodup) ∧
    (c.journal = true → s.journal.length = s.events ∧ countOf .completed s.journal = r.system.reports.length ∧
      EachFollows (fun before e => e.seq = before.length ∧ e.produced = countOf .produced (before ++ [e]) ∧
        e.consumed = countOf .consumed (before ++ [e]) ∧ e.consumed ≤ e.produced ∧
        e.occupancy = e.produced - e.consumed ∧
        (e.kind = .completed → e.consumed = c.totalItems ∧ s.consumed = c.totalItems)) s.journal) := by
  intro s
  have hu := Underway.exec hc schedule (Underway.start hc hstart calls) hexec
  have hcoherent : s.Coherent c := hu.sound.coherent
  have hlevel := hcoherent.level
  have hphase := Phase.reached_iff c.totalItems s.produced s.consumed (by omega) hcoherent.bound
  rw [← hcoherent.phase] at hphase
  have hevents : s.events = s.produced + s.consumed + r.system.reports.length := by
    rw [System.reports, List.length_filterMap_eq_countP]
    exact hu.sound.events
  refine ⟨hphase, fun who r' hstep => hu.step_phase hc hstep, ⟨by omega, by omega, hcoherent.len_le⟩, ⟨?_, ?_⟩,
    ⟨hevents, hu.sound.reporters_nodup⟩, fun hkeep => ?_⟩
  · rw [hcoherent.done, hphase.2.2]
    simp
  · rw [State.isDone, hcoherent.done, hphase.2.2]
    cases s.failed <;> simp
  · obtain ⟨hj, hch⟩ := exec_chronicled hc hkeep calls schedule hstart hexec
    have hlength : s.events = s.produced + s.consumed + countOf .completed s.journal := by
      rw [← hch.length, ← hch.produced, ← hch.consumed]
      exact length_eq_countOf s.journal
    refine ⟨hch.length, by omega, fun before e after hsplit => ?_⟩
    have he := hch.entries before e after hsplit
    have helevel := he.level
    refine ⟨he.seq, he.produced, he.consumed, by omega, by omega, fun hkind => ⟨(he.closing hkind).1, ?_⟩⟩
    obtain ⟨items, ends, hparts, hitems, -, hall⟩ := hj.ends
    refine hall fun hnil => ?_
    have hmem : e ∈ items := by
      rw [← List.append_nil items, ← hnil, ← hparts, hsplit]
      simp
    exact hitems e hmem hkind

/-- The last item is out and one of two watchers has reported when a call from outside fails the run: the run stays
complete and is no longer done. -/
theorem coherent_at_every_moment_failed_late :
    let c : Config := { capacity := 1, producers := 1, itemsPerProducer := 1, watchers := 2 }
    let schedule := List.replicate 5 none ++ [4, 4, 4, 4, 1, 3, 1, 1, 1, 2, 2, 0].map some
    c.Fits ∧ c.journal = true ∧ ∃ r₀ r, Run.start c [] = .ok r₀ ∧ (r₀.withCalls 1).exec schedule = some r ∧
      (r.system.monitor.state.phase, r.system.monitor.state.failed, r.system.reports) =
        (.complete, true, [⟨0, 1, 2⟩]) ∧
      (r.system.monitor.state.isDone = true ↔
        r.system.monitor.state.phase = .complete ∧ r.system.monitor.state.failed = false) ∧
      r.system.monitor.state.journal.length = r.system.monitor.state.events := by
  intro c schedule
  have hc : c.Fits := ⟨by decide, by decide, by decide⟩
  obtain ⟨r₀, r, hstart, hexec, hseen⟩ := exists_exec c 1 schedule (b := (.complete, true, [⟨0, 1, 2⟩]))
    (fun r => (r.system.monitor.state.phase, r.system.monitor.state.failed, r.system.reports)) (by decide +kernel)
  obtain ⟨-, -, -, ⟨-, hdone⟩, -, hkept⟩ := coherent_at_every_moment hc 1 schedule hstart hexec
  exact ⟨hc, rfl, r₀, r, hstart, hexec, hseen, hdone, (hkept rfl).1⟩

end Run
end Handover
