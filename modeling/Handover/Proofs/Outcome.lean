import Handover.Proofs.Order
import Handover.Proofs.Progress
/-!
# Outcome — every schedule of a run ends with the same report

When nobody can move, everybody is back with all its work done, so the counters, the phase, the places and the watchers'
reports are the same whatever the schedule was (`Report.Whole`).  Only which watcher reported first, and the order of
the items in the journal, are left to it.
-/
namespace Handover

/-- **What the report of a run says in which nothing went wrong.** -/
structure Report.Whole (c : Config) (report : Report) : Prop where
  total : report.totalItems = c.producers * c.itemsPerProducer
  produced : report.produced = c.producers * c.itemsPerProducer
  consumed : report.consumed = c.producers * c.itemsPerProducer
  phase : report.phase = .complete
  permits : report.permits = ⟨c.capacity, 0⟩
  watchers : report.completions.map Completion.watcher = List.range c.watchers
  totals : ∀ r ∈ report.completions, r.totalItems = c.producers * c.itemsPerProducer
  seqs : (report.completions.map Completion.seq).Perm (List.range' (2 * (c.producers * c.itemsPerProducer)) c.watchers)
  verified : report.verify = .ok ()
  silent : c.journal = false → report.journal = []
  kept : c.journal = true → report.journal.length = 2 * (c.producers * c.itemsPerProducer) + c.watchers ∧
    ∃ items ends, report.journal = items ++ ends ∧ (∀ e ∈ items, e.kind ≠ .completed) ∧ ∀ e ∈ ends, e.kind = .completed

/-! ## The watchers' reports -/

def AgentName.watcherId? : AgentName → Option Nat
  | watcher id => some id
  | _ => none

theorem Config.watchers_of_roster (c : Config) : c.roster.filterMap AgentName.watcherId? = List.range c.watchers := by
  simp [roster, AgentName.watcherId?, List.filterMap_cons, List.filterMap_map, Function.comp_def]

theorem Agent.Returned.report?_watcher {c : Config} {a : Agent} (h : a.Returned c) :
    a.report?.map Completion.watcher = a.name?.bind AgentName.watcherId? := by
  cases h <;> rfl

theorem Agent.Returned.report?_total {c : Config} {a : Agent} (h : a.Returned c) {r : Completion}
    (hr : a.report? = some r) : r.totalItems = c.totalItems := by
  cases h <;> cases hr
  rfl

namespace System

theorem reports_eq {c : Config} {s : System} (hnames : s.names = c.roster) (hback : ∀ a ∈ s.agents.toList, a.Returned c) :
    s.reports.map Completion.watcher = List.range c.watchers := by
  rw [← c.watchers_of_roster, ← hnames, reports, names, List.map_filterMap, List.filterMap_filterMap]
  exact List.filterMap_congr fun a ha => (hback a ha).report?_watcher

structure Ended (c : Config) (s : System) : Prop where
  produced : s.monitor.state.produced = c.totalItems
  consumed : s.monitor.state.consumed = c.totalItems
  phase : s.monitor.state.phase = .complete
  free : s.monitor.slots.free.value = c.capacity
  filled : s.monitor.slots.filled.value = 0
  reported : s.reports.map Completion.watcher = List.range c.watchers
  counted : s.count Agent.hasReported = c.watchers
  events : s.monitor.state.events = 2 * c.totalItems + c.watchers

end System

namespace Run

variable {c : Config} {calls : Nat} {r r' : Run}

/-- Agents that are back with all their work done are judged well, and the reports are the watchers'. -/
theorem judge_returned : ∀ l : List Agent, (∀ a ∈ l, a.Returned c) → judge l = .ok (l.filterMap Agent.report?)
  | [], _ => rfl
  | a :: l, h => by
    have ih := judge_returned l fun x hx => h x (List.mem_cons_of_mem _ hx)
    cases h a List.mem_cons_self with
    | producer | consumer => exact ih
    | watcher id seq =>
      change (judge l).map (_ :: ·) = .ok (_ :: l.filterMap Agent.report?)
      rw [ih]
      rfl

theorem mem_lookedAt {l : List Agent} {a : Agent} (h : a ∈ lookedAt l) : a ∈ l := by
  simp only [lookedAt, List.mem_append, List.mem_filter] at h
  rcases h with (h | h) | h <;> exact h.1

/-- Only watchers report, so looking at the agents in another order changes nothing about the reports. -/
theorem reports_of_lookedAt (l : List Agent) : (lookedAt l).filterMap Agent.report? = l.filterMap Agent.report? := by
  have hnone : ∀ p : Agent → Bool, (∀ a, p a = true → a.report? = none) → (l.filter p).filterMap Agent.report? = [] :=
    fun p hp => List.filterMap_eq_nil_iff.2 fun a ha => hp a (List.mem_filter.1 ha).2
  rw [lookedAt, List.filterMap_append, List.filterMap_append, hnone, hnone, List.nil_append, List.nil_append,
    List.filterMap_filter]
  · congr 1
    funext a
    cases a <;> rfl
  · intro a ha
    cases a with
    | consumer => rfl
    | producer | watcher | starter | finisher | breaker => cases ha
  · intro a ha
    cases a with
    | producer => rfl
    | consumer | watcher | starter | finisher | breaker => cases ha

/-! ## Nothing is kept without a journal -/

theorem Underway.exec_silent (hc : c.Fits) (hoff : c.journal = false) (schedule : List (Option Nat))
    (hu : r.Underway c calls) (hnil : r.system.monitor.state.trail = []) (h : r.exec schedule = some r') :
    r'.system.monitor.state.trail = [] :=
  Underway.exec_state (P := fun s => s.trail = []) hc (fun _ hs => hs)
    (fun he _ hcoherent _ _ hs => he.trail_nil (hcoherent.keep.trans hoff) hs) schedule hu hnil h

/-! ## The end of a run -/

/-- **At the end of a run everything was produced and consumed, and every place is free.** -/
theorem Underway.ended (hu : r.Underway c 0) (hc : c.Fits) (hnames : r.system.names = c.roster)
    (hback : ∀ a ∈ r.system.agents.toList, a.Returned c) : r.system.Ended c := by
  have hf := hu.not_failed
  have hb := hu.sound.balanced (.of_not_failed hf)
  have hproduced := hb.produced_eq hc hnames fun a ha _ _ => hback a ha
  have hconsumed : r.system.monitor.state.consumed = c.totalItems := by
    obtain ⟨place, hmem⟩ := System.exists_consumer hnames
    cases hback _ hmem
    exact (hu.sound.stands _ hmem).2.1
  have hlevel := hu.sound.coherent.level
  have hshown := hb.shown hu.sound hf fun a ha side => (hback a ha).out_eq side
  have hfree : r.system.monitor.slots.free.value = c.capacity - r.system.monitor.state.buffer.len := hshown .free
  have hfilled : r.system.monitor.slots.filled.value = r.system.monitor.state.buffer.len := hshown .filled
  have hreported := System.reports_eq hnames hback
  have hcount : r.system.count Agent.hasReported = c.watchers := by
    have hlength := congrArg List.length hreported
    rw [List.length_map, List.length_range, System.reports, List.length_filterMap_eq_countP] at hlength
    exact hlength
  have hevents := hu.sound.events
  refine ⟨hproduced, hconsumed, ?_, by omega, by omega, hreported, hcount, by omega⟩
  rw [hu.sound.coherent.phase, Phase.reached, if_pos hconsumed]

/-- **When everybody is back the run has a report, and nothing went wrong.** -/
theorem Underway.result_whole (hu : r.Underway c 0) (hc : c.Fits) (hwaiting : r.launcher = .waiting none)
    (hnames : r.system.names = c.roster) (hback : ∀ a ∈ r.system.agents.toList, a.Returned c)
    (hsilent : c.journal = false → r.system.monitor.state.trail = [])
    (hkept : c.journal = true → r.system.monitor.state.Journaled c) :
    ∃ report, r.result? = some (.ok report) ∧ report.Whole c := by
  have hended := hu.ended hc hnames hback
  have htotal := Monitor.totalItems_eq hu.sound.config
  have hfinished := System.unfinished_of_returned hback
  refine ⟨.ofMonitor r.system.monitor r.system.reports, ?_, ?_⟩
  · unfold result?
    rw [hwaiting]
    simp only [hfinished, ne_eq, not_true_eq_false, if_false]
    rw [judge_returned (c := c) _ fun a ha => hback a (mem_lookedAt ha), reports_of_lookedAt]
    rfl
  · have hverified : (Report.ofMonitor r.system.monitor r.system.reports).verify = .ok () := by
      simp [Report.verify, Report.ofMonitor, htotal, hended.produced, hended.consumed, hended.filled]
    exact {
      total := htotal.trans hc.total_eq
      produced := hended.produced.trans hc.total_eq
      consumed := hended.consumed.trans hc.total_eq
      phase := hended.phase
      permits := by rw [Report.ofMonitor, hended.free, hended.filled]
      watchers := hended.reported
      totals := by
        intro report hreport
        obtain ⟨a, ha, hreport⟩ := List.mem_filterMap.1 hreport
        exact ((hback a ha).report?_total hreport).trans hc.total_eq
      seqs := by
        rw [← hc.total_eq, ← hended.counted]
        exact hu.sound.numbers
      verified := hverified
      silent := by
        intro hoff
        change r.system.monitor.state.trail.reverse = []
        rw [hsilent hoff]
        rfl
      kept := by
        intro hon
        obtain ⟨items, ends, hjournal, hitems, hends, -⟩ := (hkept hon).ends
        rw [← hc.total_eq, ← hended.events]
        exact ⟨(hkept hon).length, items, ends, hjournal, hitems, hends⟩ }

theorem result_of_stuck (hc : c.Fits) {r₀ : Run} {schedule : List (Option Nat)} (hstart : Run.start c [] = .ok r₀)
    (hexec : r₀.exec schedule = some r) (hstuck : ∀ who, r.step who = none) :
    (∃ report, r.result? = some (.ok report) ∧ report.Whole c) ∧ r.system.names = c.roster ∧
      ∀ a ∈ r.system.agents.toList, a.Returned c := by
  have hu₀ := Underway.start_alone hc hstart
  have ho₀ := start_keepsOrder hc hstart 0
  rw [withCalls_zero] at ho₀
  have hu := Underway.exec hc schedule hu₀ hexec
  obtain ⟨hwaiting, hopen, hnames⟩ := hu.waiting_of_stuck hstuck
  have hback := hu.returned_of_stuck hc hopen hnames fun i => Option.map_eq_none_iff.1 (hstuck (some i))
  refine ⟨hu.result_whole hc hwaiting hnames hback (fun hoff => ?_) (fun hon => ?_), hnames, hback⟩
  · refine Underway.exec_silent hc hoff schedule hu₀ ?_ hexec
    rw [start_ok hc.valid, Except.ok.injEq] at hstart
    rw [← hstart]
    rfl
  · exact (Underway.exec_keepsOrder hc hon schedule hu₀ ho₀ hexec).journal

/-- **The outcome of a run does not depend on the schedule.**  Every schedule of the launcher and the agents that cannot
be continued ends with a report in which nothing went wrong, and with every producer back with its quota, the consumer
with all items and every watcher with its report; the schedule by which `run` carries a run out is one of them. -/
theorem outcome_of_every_schedule (hc : c.Fits) (schedule : List (Option Nat)) {r₀ r : Run}
    (hstart : Run.start c [] = .ok r₀) (hexec : r₀.exec schedule = some r) (hstuck : ∀ who, r.step who = none) :
    (∃ report, r.result? = some (.ok report) ∧ report.Whole c) ∧
    (r.system.names = c.roster ∧ ∀ a ∈ r.system.agents.toList, a.Returned c) ∧
    ∃ report, run c = .ok report ∧ report.Whole c := by
  obtain ⟨hresult, hreturned⟩ := result_of_stuck hc hstart hexec hstuck
  refine ⟨hresult, hreturned, ?_⟩
  obtain ⟨rest, hrest, hend⟩ := (Underway.start_alone hc hstart).complete_stuck hc
  obtain ⟨⟨report, hreport, hwhole⟩, -⟩ := result_of_stuck hc hstart hrest hend
  refine ⟨report, ?_, hwhole⟩
  unfold run
  rw [hstart]
  simp only [hreport, Option.getD_some]

/-- One cell, two producers and two watchers, of which the second one reports first. -/
theorem outcome_of_crossed_reports :
    let c : Config := { capacity := 1, producers := 2, itemsPerProducer := 1, watchers := 2 }
    let schedule := List.replicate 6 none ++
      [3, 3, 3, 3, 0, 0, 0, 0, 4, 4, 4, 4, 0, 0, 0, 2, 2, 1, 1].map some
    c.Fits ∧ ∃ r₀ r, Run.start c [] = .ok r₀ ∧ r₀.exec schedule = some r ∧ (∀ who, r.step who = none) ∧
      r.system.reports = [⟨0, 2, 5⟩, ⟨1, 2, 4⟩] ∧ (∃ report, r.result? = some (.ok report) ∧ report.Whole c) ∧
      (r.system.names = c.roster ∧ ∀ a ∈ r.system.agents.toList, a.Returned c) ∧
      ∃ report, run c = .ok report ∧ report.Whole c := by
  intro c schedule
  have hc : c.Fits := ⟨by decide, by decide, by decide⟩
  obtain ⟨r₀, r, hstart, hexec, hseen⟩ := exists_exec c 0 schedule (b := (true, true, [⟨0, 2, 5⟩, ⟨1, 2, 4⟩]))
    (fun r => (r.launch.isNone, (List.range r.system.agents.size).all fun i => (r.system.step i).isNone,
      r.system.reports)) (by decide +kernel)
  rw [withCalls_zero] at hexec
  rw [Prod.mk.injEq, Prod.mk.injEq] at hseen
  obtain ⟨hlaunch, hagents, hreports⟩ := hseen
  have hsettled : ∀ i, r.system.step i = none := by
    intro i
    by_cases hi : i < r.system.agents.size
    · exact Option.isNone_iff_eq_none.1 (List.all_eq_true.1 hagents i (List.mem_range.2 hi))
    · exact System.step_of_size_le (Nat.not_lt.1 hi)
  have hstuck := step_of_settled hsettled (Option.isNone_iff_eq_none.1 hlaunch)
  exact ⟨hc, r₀, r, hstart, hexec, hstuck, hreports, outcome_of_every_schedule hc schedule hstart hexec hstuck⟩

end Run
end Handover
