import Handover.Program.Checker
import Handover.Proofs.Chronicle
import Handover.Proofs.Consistency
import Handover.Proofs.Outcome
import Handover.Proofs.RoundTrip
/-!
# Acceptance — the trace of every run passes

When a run is over, its journal has every item twice, in each producer's order, and then the watchers' ends
(`State.Closed`).  What makes such a journal consistent was there when each entry was written, so nothing is asked of
the schedule.  Its numbers fit in 64 bits, so the trace that is written is read back as the journal that was kept.
-/
namespace Handover

theorem mem_itemsOf {kind : Kind} {journal : List Event} {e : Event} {i : Item} (he : e ∈ journal) (hk : e.kind = kind)
    (hi : e.item? = some i) : i ∈ itemsOf kind journal :=
  List.mem_filterMap.2 ⟨e, List.mem_filter.2 ⟨he, by simpa using hk⟩, hi⟩

theorem Event.Tells.item?_eq {e : Event} {o : Audit.Origin} (h : e.Tells o) :
    e.item? = some (Item.of o.producer o.sequence) := by
  obtain ⟨hp, hs, hv⟩ := h
  simp [Event.item?, hp, hs, hv, Item.of]

theorem Event.tells_of_item? {e : Event} {p n : Nat} (h : e.item? = some (Item.of p n)) : e.Tells ⟨p, n⟩ := by
  simpa [Event.item?, Event.Tells, Option.bind_eq_some_iff, Item.of] using h

namespace State

variable {c : Config} {s : State}

/-- **The state at the end of a run that keeps its journal.** -/
structure Closed (c : Config) (s : State) : Prop where
  journaled : s.Journaled c
  chronicled : s.Chronicled c
  produced : s.produced = c.totalItems
  consumed : s.consumed = c.totalItems
  events : s.events = 2 * c.totalItems + c.watchers
  empty : s.buffer.toList = []
  items : ∀ p, (itemsOf .produced s.journal).filter (·.producer = p) =
    (List.range (if p < c.producers then c.itemsPerProducer else 0)).map (Item.of p)

namespace Closed

theorem items_eq (h : s.Closed c) : itemsOf .consumed s.journal = itemsOf .produced s.journal := by
  rw [← h.journaled.queue, h.empty, List.append_nil]

theorem origins_eq (h : s.Closed c) : originsOf .consumed s.journal = originsOf .produced s.journal := by
  rw [originsOf, originsOf, h.items_eq]

theorem completed (h : s.Closed c) : countOf .completed s.journal = c.watchers := by
  have hlength := length_eq_countOf s.journal
  rw [h.chronicled.length, h.chronicled.produced, h.chronicled.consumed, h.produced, h.consumed, h.events] at hlength
  omega

theorem entry (h : s.Closed c) {e : Event} (he : e ∈ s.journal) : ∃ before, e.TrueAfter c before := by
  obtain ⟨before, after, hsplit⟩ := List.append_of_mem he
  exact ⟨before, h.chronicled.entries before e after hsplit⟩

/-- An entry that is not about the end is about an item that some producer had to make. -/
theorem item (h : s.Closed c) {e : Event} (he : e ∈ s.journal) (hk : e.kind ≠ .completed) :
    ∃ p n, p < c.producers ∧ n < c.itemsPerProducer ∧ e.item? = some (Item.of p n) := by
  obtain ⟨i, hi⟩ := Option.isSome_iff_exists.1 (h.journaled.told e he hk)
  have hmem : i ∈ itemsOf .produced s.journal := by
    cases hkind : e.kind with
    | produced => exact mem_itemsOf he hkind hi
    | consumed => exact h.items_eq ▸ mem_itemsOf he hkind hi
    | completed => exact absurd hkind hk
  obtain ⟨hof, hlt⟩ := item_of_inOrder h.items hmem
  by_cases hp : i.producer < c.producers
  · rw [if_pos hp] at hlt
    exact ⟨i.producer, i.sequence, hp, hlt, hi.trans (congrArg some hof)⟩
  · rw [if_neg hp] at hlt
    exact absurd hlt (Nat.not_lt_zero _)

theorem places (h : s.Closed c) (p : Nat) :
    placesOf p s.journal = List.range (if p < c.producers then c.itemsPerProducer else 0) := by
  have hfilter : (originsOf .produced s.journal).filter (·.producer = p) =
      ((itemsOf .produced s.journal).filter (·.producer = p)).map Item.origin := by
    rw [originsOf, List.filter_map]
    rfl
  rw [placesOf, h.origins_eq, hfilter, h.items p, List.map_map, List.map_map]
  exact List.map_id _

/-- **The journal of a run that is over is consistent.** -/
theorem consistent (h : s.Closed c) (hc : c.Fits) :
    Audit.Consistent (some c.capacity) (some c.totalItems) s.journal := by
  have hordered : ∀ p, placesOf p s.journal = List.range (placesOf p s.journal).length := by
    intro p
    rw [h.places p, List.length_range]
  refine ⟨h.chronicled.entries.imp fun _ _ he => he.seq, ?_,
    h.chronicled.entries.imp fun _ _ he _ => ⟨he.produced, he.consumed⟩, ?_, ?_, ?_, ?_, hordered, ?_, ?_, ?_⟩
  · obtain ⟨items, ends, hsplit, hitems, hends, -⟩ := h.journaled.ends
    refine ⟨items, ends, hsplit, ?_, hitems, hends⟩
    rintro rfl
    have hnone : countOf .completed s.journal = 0 := by
      rw [hsplit, List.append_nil]
      exact List.countP_eq_zero.2 (by simpa using hitems)
    rw [h.completed] at hnone
    exact absurd hnone (Nat.ne_of_gt hc.watchers_pos)
  · intro e he hk
    obtain ⟨p, n, -, -, hi⟩ := h.item he hk
    exact ⟨_, Event.tells_of_item? hi⟩
  · rw [← h.origins_eq]
    exact Audit.nodup_of_places hordered
  · rw [h.origins_eq]
  · refine h.chronicled.entries.imp fun before e he hk o ho => ?_
    have hcame := he.came hk _ ho.item?_eq
    exact List.mem_map.2 ⟨_, hcame, rfl⟩
  · intro e he hk
    obtain ⟨before, htrue⟩ := h.entry he
    rw [(htrue.closing hk).1, h.chronicled.produced, h.produced]
  · intro e he
    obtain ⟨before, htrue⟩ := h.entry he
    have hlevel := htrue.level
    refine ⟨by omega, by omega, ?_⟩
    rintro n ⟨⟩
    exact htrue.room
  · rintro n ⟨⟩
    rw [h.chronicled.consumed, h.consumed]

/-- **Every number in the journal fits in 64 bits.** -/
theorem inRange (h : s.Closed c) (hc : c.Fits) : ∀ e ∈ s.journal, e.InRange := by
  intro e he
  obtain ⟨before, after, hsplit⟩ := List.append_of_mem he
  have htrue := h.chronicled.entries before e after hsplit
  have hfits := hc.events
  have hseq : before.length < s.journal.length := by simp [hsplit]
  rw [h.chronicled.length, h.events] at hseq
  have hproduced : e.produced ≤ c.totalItems := by
    have hjournal : s.journal = before ++ [e] ++ after := by simp [hsplit]
    rw [htrue.produced, ← h.produced, ← h.chronicled.produced, hjournal, countOf_append .produced (before ++ [e])]
    exact Nat.le_add_right _ _
  have hlevel := htrue.level
  have hitem : ∀ i ∈ e.item?, i.producer < Word.limit ∧ i.sequence < Word.limit ∧ i.value < Word.limit := by
    intro i hi
    have hk : e.kind ≠ .completed := by
      intro hk
      rw [(htrue.closing hk).2] at hi
      cases hi
    obtain ⟨p, n, hp, hn, hof⟩ := h.item he hk
    have hvalue := hc.value_lt hp hn
    rw [hof] at hi
    cases hi
    have hexact : p * 100 + n < Word.limit := hvalue
    exact ⟨show p < Word.limit by omega, show n < Word.limit by omega, hvalue⟩
  obtain ⟨hp, hs, hv⟩ := htrue.parts
  refine ⟨by rw [htrue.seq]; omega, ?_, ?_, ?_, by omega, by omega, by omega⟩
  · intro n hn
    obtain ⟨i, hi, rfl⟩ := Option.map_eq_some_iff.1 (hp ▸ hn)
    exact (hitem i hi).1
  · intro n hn
    obtain ⟨i, hi, rfl⟩ := Option.map_eq_some_iff.1 (hs ▸ hn)
    exact (hitem i hi).2.1
  · intro n hn
    obtain ⟨i, hi, rfl⟩ := Option.map_eq_some_iff.1 (hv ▸ hn)
    exact (hitem i hi).2.2

theorem producers_eq (h : s.Closed c) (hc : c.Fits) :
    ((originsOf .consumed s.journal).map Audit.Origin.producer).dedup.length = c.producers := by
  have hmem (p : Nat) : p ∈ (originsOf .consumed s.journal).map Audit.Origin.producer ↔ p < c.producers := by
    have hplaces := congrArg List.length (h.places p)
    have hpos := hc.items_pos
    rw [List.length_range, placesOf, List.length_map] at hplaces
    constructor
    · intro hp
      obtain ⟨o, ho, rfl⟩ := List.mem_map.1 hp
      by_contra hge
      rw [if_neg hge, List.length_eq_zero_iff, List.filter_eq_nil_iff] at hplaces
      exact hplaces o ho (by simp)
    · intro hp
      rw [if_pos hp] at hplaces
      obtain ⟨o, ho⟩ := List.exists_mem_of_length_pos (hplaces ▸ hpos)
      obtain ⟨ho, hproducer⟩ := List.mem_filter.1 ho
      exact List.mem_map.2 ⟨o, ho, by simpa using hproducer⟩
  have hperm : ((originsOf .consumed s.journal).map Audit.Origin.producer).dedup.Perm (List.range c.producers) := by
    rw [List.perm_ext_iff_of_nodup (List.nodup_dedup _) List.nodup_range]
    intro p
    rw [List.mem_dedup, hmem, List.mem_range]
  rw [hperm.length_eq, List.length_range]

/-- Right after an item went in the ring is not empty, and it never holds more than it can. -/
theorem peak (h : s.Closed c) (hc : c.Fits) : 0 < peakOf s.journal ∧ peakOf s.journal ≤ c.capacity := by
  have hpos : 0 < peakOf s.journal := by
    have hsome : 0 < countOf .produced s.journal := by
      rw [h.chronicled.produced, h.produced]
      exact hc.total_pos
    obtain ⟨e, he, hk⟩ := List.countP_pos_iff.1 hsome
    obtain ⟨before, htrue⟩ := h.entry he
    exact (htrue.filled (by simpa using hk)).trans_le (le_peakOf e he)
  refine ⟨hpos, ?_⟩
  obtain ⟨e, he, hpeak⟩ := exists_peakOf hpos
  obtain ⟨before, htrue⟩ := h.entry he
  rw [← hpeak]
  exact htrue.room

end Closed
end State

namespace Run

variable {c : Config} {r : Run}

theorem result?_journal {report : Report} (h : r.result? = some (.ok report)) :
    report.journal = r.system.monitor.state.journal := by
  unfold result? at h
  simp only at h
  repeat' split at h
  all_goals simp at h
  subst h
  rfl

/-- **Where a run stops, its journal is closed.** -/
theorem closed_of_stuck (hc : c.Fits) (hkeep : c.journal = true) {schedule : List (Option Nat)} {r₀ : Run}
    (hstart : Run.start c [] = .ok r₀) (hexec : r₀.exec schedule = some r) (hstuck : ∀ who, r.step who = none) :
    r.system.monitor.state.Closed c := by
  have hu₀ := Underway.start_alone hc hstart
  have ho₀ := start_keepsOrder hc hstart 0
  rw [withCalls_zero] at ho₀
  have hu := Underway.exec hc schedule hu₀ hexec
  obtain ⟨-, hnames, hback⟩ := result_of_stuck hc hstart hexec hstuck
  have hended := hu.ended hc hnames hback
  obtain ⟨hj, hch⟩ := exec_chronicled hc hkeep 0 schedule hstart (by rw [withCalls_zero]; exact hexec)
  have ho := (Underway.exec_keepsOrder hc hkeep schedule hu₀ ho₀ hexec).order
  have hlevel := hu.sound.coherent.level
  have hempty : r.system.monitor.state.buffer.toList = [] := by
    rw [← List.length_eq_zero_iff, ← hu.sound.coherent.ring.len_eq]
    have := hended.produced
    have := hended.consumed
    omega
  refine ⟨hj, hch, hended.produced, hended.consumed, hended.events, hempty, fun p => ?_⟩
  rw [ho.items p]
  by_cases hp : p < c.producers
  · have hmem : AgentName.producer p ∈ r.system.names := by
      rw [hnames]
      exact Config.mem_roster_producer.2 hp
    obtain ⟨a, ha, hname⟩ := List.mem_filterMap.1 hmem
    have hquota : a.isFaulty = false ∧ a.inserts = c.itemsPerProducer := by
      cases hback a ha with
      | producer id => exact ⟨rfl, rfl⟩
      | consumer | watcher => cases hname
    rw [← ho.places a ha p hname hquota.1, hquota.2, if_pos hp]
  · rw [ho.absent p (by rw [hnames, Config.mem_roster_producer]; exact hp), if_neg hp]

/-- **The trace of every run passes.**  Every schedule of a run that keeps its journal, up to where nobody can move,
ends with a report whose journal, written as a trace, is read back as it was and passes with the run's capacity and its
number of items.  The totals are those of the run, and the peak is the largest occupancy that the journal shows. -/
theorem trace_of_every_schedule_passes (hc : c.Fits) (hkeep : c.journal = true) (schedule : List (Option Nat))
    {r₀ r : Run} (hstart : Run.start c [] = .ok r₀) (hexec : r₀.exec schedule = some r)
    (hstuck : ∀ who, r.step who = none) :
    ∃ report summary, r.result? = some (.ok report) ∧ report.totalItems = c.producers * c.itemsPerProducer ∧
      (∀ path, Program.Checker.load path (.ok (Trace.bytes (Trace.write report.journal))) = .ok report.journal) ∧
      Audit.check report.journal (some c.capacity) (some report.totalItems) = .ok summary ∧
      (summary.produced = report.totalItems ∧ summary.consumed = report.totalItems ∧
        summary.completions = c.watchers ∧ summary.producers = c.producers) ∧
      ((∀ e ∈ report.journal, e.occupancy ≤ summary.peakOccupancy) ∧
        (∃ e ∈ report.journal, e.occupancy = summary.peakOccupancy) ∧
        1 ≤ summary.peakOccupancy ∧ summary.peakOccupancy ≤ c.capacity) := by
  obtain ⟨⟨report, hresult, hwhole⟩, -⟩ := result_of_stuck hc hstart hexec hstuck
  have hclosed := closed_of_stuck hc hkeep hstart hexec hstuck
  have hconsistent := hclosed.consistent hc
  have hinRange := hclosed.inRange hc
  have htotal : report.totalItems = c.totalItems := hwhole.total.trans hc.total_eq.symm
  obtain ⟨hpos, hroom⟩ := hclosed.peak hc
  have hlength : r.system.monitor.state.journal.length < Word.limit := by
    rw [hclosed.chronicled.length, hclosed.events]
    exact hc.events
  refine ⟨report, .ofJournal r.system.monitor.state.journal, hresult, hwhole.total, ?_⟩
  rw [result?_journal hresult, htotal]
  refine ⟨fun path => ?_, ?_, ⟨?_, ?_, hclosed.completed, hclosed.producers_eq hc⟩, le_peakOf, exists_peakOf hpos, hpos,
    hroom⟩
  · rw [Program.Checker.load, Trace.read_write hinRange]
    rfl
  · exact (Audit.check_eq_ok hlength fun e he => (hinRange e he).value).2
      ⟨hconsistent.admitted, hconsistent.ended, hconsistent.total, rfl⟩
  · exact hclosed.chronicled.produced.trans hclosed.produced
  · exact hclosed.chronicled.consumed.trans hclosed.consumed

/-- Two cells that are full three times, two producers whose items alternate, and two watchers, of which the second one
reports first. -/
theorem trace_of_every_schedule_passes_crossed :
    let c : Config := { capacity := 2, producers := 2, itemsPerProducer := 2, watchers := 2 }
    let schedule := List.replicate 6 none ++
      [4, 4, 4, 4, 3, 3, 3, 3, 0, 0, 0, 0, 4, 4, 4, 0, 0, 0, 3, 3, 3, 0, 0, 0, 0, 0, 0, 2, 2, 1, 1].map some
    c.Fits ∧ c.journal = true ∧ ∃ r₀ r, Run.start c [] = .ok r₀ ∧ r₀.exec schedule = some r ∧
      (∀ who, r.step who = none) ∧
      itemsOf .consumed r.system.monitor.state.journal = [.of 1 0, .of 0 0, .of 1 1, .of 0 1] ∧
      ∃ report summary, r.result? = some (.ok report) ∧
        (∀ path, Program.Checker.load path (.ok (Trace.bytes (Trace.write report.journal))) = .ok report.journal) ∧
        Audit.check report.journal (some c.capacity) (some report.totalItems) = .ok summary ∧
        (summary.completions = c.watchers ∧ summary.producers = c.producers) := by
  intro c schedule
  have hc : c.Fits := ⟨by decide, by decide, by decide⟩
  obtain ⟨r₀, r, hstart, hexec, hseen⟩ := exists_exec c 0 schedule
    (b := (true, true, [.of 1 0, .of 0 0, .of 1 1, .of 0 1]))
    (fun r => (r.launch.isNone, (List.range r.system.agents.size).all fun i => (r.system.step i).isNone,
      itemsOf .consumed r.system.monitor.state.journal)) (by decide +kernel)
  rw [withCalls_zero] at hexec
  rw [Prod.mk.injEq, Prod.mk.injEq] at hseen
  have hstuck := stuck_of_all hseen.1 hseen.2.1
  obtain ⟨report, summary, hresult, -, hload, hcheck, ⟨-, -, hcounts⟩, -⟩ :=
    trace_of_every_schedule_passes hc rfl schedule hstart hexec hstuck
  exact ⟨hc, rfl, r₀, r, hstart, hexec, hstuck, hseen.2.2, report, summary, hresult, hload, hcheck, hcounts⟩

end Run
end Handover
