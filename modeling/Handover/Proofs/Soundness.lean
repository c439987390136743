import Handover.Proofs.Census
import Handover.Proofs.Standing
/-!
# Soundness — the invariant of a run

`System.Sound` is what holds of a monitor and the agents around it in every state of a run.  One part holds always: the
guarded state is coherent, every agent stands where its place allows, no two agents share a name, and the events are
those of the items and the reports.  The other part, `System.Balanced`, holds as long as there is room for the places
that a failure adds (`System.Roomy`): no agent met a fault, each counter and the places that the agents keep away make
up the places of the buffer and those that were added, and the producers' counts make up what was produced.

The argument goes round: in a balanced system every agent is safe (`Sound.safe`), so its step is a turn, and a turn
keeps the balance (`Sound.step`).  Without room a failure has been marked, and then the guarded state is frozen.
-/
namespace Handover

/-- A call that has added a place has marked the run, and so has one that was lost. -/
theorem Agent.added_le (side : Side) (a : Agent) : a.added side + a.isLost.toNat ≤ a.isMarker.toNat := by
  cases a with
  | breaker place =>
    cases place with
    | calling stage => cases stage <;> cases side <;> decide
    | finished first => cases first <;> cases side <;> decide
    | faulted => cases side <;> exact Nat.le_refl _
  | producer | consumer | watcher | starter | finisher => cases side <;> exact Nat.zero_le _

namespace System

/-- There is room for the places that a failure adds. -/
def Roomy (s : System) : Prop := s.monitor.state.failed = true → s.monitor.config.capacity < slotLimit

def reports (s : System) : List Completion := s.agents.toList.filterMap Agent.report?

/-- **No fault was met, and the permits and the items add up.** -/
structure Balanced (c : Config) (s : System) : Prop where
  upright : s.halted = false
  whole : ∀ a ∈ s.agents.toList, a.isFaulty = false
  accounts : ∀ side, (s.monitor.slots.get side).value + s.tally (Agent.out side) =
    s.monitor.state.places c side + s.tally (Agent.added side)
  produced : s.monitor.state.produced = s.tally Agent.inserts

/-- **The invariant of a run.** -/
structure Sound (c : Config) (s : System) : Prop where
  config : s.monitor.config = c
  coherent : s.monitor.state.Coherent c
  closed : s.monitor.state.start = false → s.monitor.state.produced = 0
  events : s.monitor.state.events =
    s.monitor.state.produced + s.monitor.state.consumed + s.count Agent.hasReported
  numbers : (s.reports.map Completion.seq).Perm (List.range' (2 * c.totalItems) (s.count Agent.hasReported))
  nodup : s.names.Nodup
  known : ∀ name ∈ s.names, name ∈ c.roster
  stands : ∀ a ∈ s.agents.toList, a.Stands c s.monitor.state
  marked : s.count Agent.isMarker = s.monitor.state.failed.toNat
  balanced : s.Roomy → s.Balanced c

variable {c : Config} {s s' : System} {a a' : Agent} {i : Nat}

theorem Roomy.of_not_failed (hf : s.monitor.state.failed = false) : s.Roomy := by
  intro hf'
  rw [hf] at hf'
  cases hf'

theorem failed_of_not_roomy (h : ¬ s.Roomy) : s.monitor.state.failed = true := (Classical.not_imp.1 h).1

/-! ## Counting -/

namespace Sound

/-- Only a call from outside marks a run. -/
theorem blamed (hs : s.Sound c) (hf : s.monitor.state.failed = true) : 0 < s.count Agent.isBreaker := by
  have hmarked := hs.marked
  rw [hf, Bool.toNat_true] at hmarked
  obtain ⟨a, ha, hmarker⟩ := List.countP_pos_iff.1 (Nat.lt_of_lt_of_eq Nat.zero_lt_one hmarked.symm)
  refine List.countP_pos_iff.2 ⟨a, ha, ?_⟩
  cases a with
  | breaker => rfl
  | producer | consumer | watcher | starter | finisher => cases hmarker

theorem added_le (hs : s.Sound c) (side : Side) : s.tally (Agent.added side) ≤ s.monitor.state.failed.toNat := by
  rw [← hs.marked, count_eq_tally]
  exact tally_le fun a _ => Nat.le_of_add_right_le (a.added_le side)

/-- A call that has marked the run and not yet added a place: nobody has added one on that side. -/
theorem added_eq_zero (hs : s.Sound c) (side : Side) (ha : a ∈ s.agents.toList)
    (hlt : a.added side < a.isMarker.toNat) : s.tally (Agent.added side) = 0 := by
  have hsum : s.tally (Agent.added side) < s.count Agent.isMarker := by
    rw [count_eq_tally]
    exact tally_lt (fun a _ => Nat.le_of_add_right_le (a.added_le side)) ha hlt
  have := hs.marked
  have := Bool.toNat_le s.monitor.state.failed
  omega

end Sound

namespace Balanced

/-- **A counter and what the agents keep away are together never past the limit.** -/
theorem value_add_tally_le (hb : s.Balanced c) (hroomy : s.Roomy) (hs : s.Sound c) (hc : c.Fits) (side : Side) :
    (s.monitor.slots.get side).value + s.tally (Agent.out side) ≤ slotLimit := by
  have haccounts := hb.accounts side
  have hadded := hs.added_le side
  have hlen := hs.coherent.len_le
  have hcap := hc.capacity_le
  have hplaces : s.monitor.state.places c side ≤ c.capacity := by
    cases side
    · exact Nat.sub_le _ _
    · exact hlen
  cases hf : s.monitor.state.failed with
  | false =>
    rw [hf, Bool.toNat_false] at hadded
    omega
  | true =>
    have := hroomy hf
    rw [hs.config] at this
    rw [hf, Bool.toNat_true] at hadded
    omega

theorem value_le (hb : s.Balanced c) (hroomy : s.Roomy) (hs : s.Sound c) (hc : c.Fits) (side : Side) :
    (s.monitor.slots.get side).value ≤ slotLimit :=
  Nat.le_trans (Nat.le_add_right _ _) (hb.value_add_tally_le hroomy hs hc side)

end Balanced

namespace Sound

theorem producers_le (hs : s.Sound c) : s.count (Agent.named AgentName.isProducer) ≤ c.producers := by
  rw [← c.countP_roster_producer]
  exact count_named_le hs.nodup hs.known _

theorem watchers_le (hs : s.Sound c) : s.count (Agent.named AgentName.isWatcher) ≤ c.watchers := by
  rw [← c.countP_roster_watcher]
  exact count_named_le hs.nodup hs.known _

theorem producer_lt (hs : s.Sound c) {id : Nat} {place : ProducerPlace}
    (ha : .producer id place ∈ s.agents.toList) : id < c.producers :=
  Config.mem_roster_producer.1 (hs.known _ (List.mem_filterMap.2 ⟨_, ha, rfl⟩))

theorem inserts_le (hs : s.Sound c) (ha : a ∈ s.agents.toList) :
    a.inserts ≤ (a.named AgentName.isProducer).toNat * c.itemsPerProducer := by
  have hstands := hs.stands a ha
  cases a with
  | producer id place =>
    rw [show (Agent.producer id place).named AgentName.isProducer = true from rfl, Bool.toNat_true, Nat.one_mul]
    cases place with
    | ready | holding => exact Nat.le_of_lt hstands.2
    | moved => exact hstands.2
    | stopping => exact Nat.le_of_lt hstands.2.1
    | finished => exact hstands.2.1
    | gate | unwinding | failing | faulted | crashed => exact Nat.zero_le _
  | consumer | watcher | starter | finisher | breaker => exact Nat.zero_le _

theorem produced_lt (hs : s.Sound c) (hb : s.Balanced c) (hc : c.Fits) {id : Nat} {place : ProducerPlace}
    (ha : .producer id place ∈ s.agents.toList) (hlt : (Agent.producer id place).inserts < c.itemsPerProducer) :
    s.monitor.state.produced < c.totalItems := by
  have hsum : s.tally Agent.inserts <
      s.tally (fun a => (a.named AgentName.isProducer).toNat * c.itemsPerProducer) :=
    tally_lt (fun _ hx => hs.inserts_le hx) ha (by
      rw [show (Agent.producer id place).named AgentName.isProducer = true from rfl, Bool.toNat_true, Nat.one_mul]
      exact hlt)
  calc s.monitor.state.produced = s.tally Agent.inserts := hb.produced
    _ < s.count (Agent.named AgentName.isProducer) * c.itemsPerProducer := by rw [← tally_mul]; exact hsum
    _ ≤ c.producers * c.itemsPerProducer := Nat.mul_le_mul_right _ hs.producers_le
    _ = c.totalItems := hc.total_eq.symm

theorem hasReported_le (a : Agent) : a.hasReported.toNat ≤ (a.named AgentName.isWatcher).toNat := by
  cases a with
  | watcher id place => exact Bool.toNat_le _
  | producer | consumer | starter | finisher | breaker => exact Nat.zero_le _

theorem reported_le (hs : s.Sound c) : s.count Agent.hasReported ≤ c.watchers := by
  refine Nat.le_trans ?_ hs.watchers_le
  rw [count_eq_tally, count_eq_tally]
  exact tally_le fun a _ => hasReported_le a

theorem reported_lt (hs : s.Sound c) {id : Nat} {place : WatcherPlace} (ha : .watcher id place ∈ s.agents.toList)
    (hnot : (Agent.watcher id place).hasReported = false) : s.count Agent.hasReported < c.watchers := by
  refine Nat.lt_of_lt_of_le ?_ hs.watchers_le
  rw [count_eq_tally, count_eq_tally]
  exact tally_lt (fun a _ => hasReported_le a) ha (by
    rw [hnot, show (Agent.watcher id place).named AgentName.isWatcher = true from rfl]
    decide)

/-! ## In a balanced system every agent is safe -/

theorem room (hs : s.Sound c) (hb : s.Balanced c) (hc : c.Fits) {id n : Nat}
    (ha : .producer id (.holding n) ∈ s.agents.toList) (hf : s.monitor.state.failed = false) :
    s.monitor.state.buffer.len < c.capacity ∧ s.monitor.state.produced < c.totalItems := by
  have haccounts := hb.accounts .free
  have hadded := hs.added_le .free
  have hout := s.le_tally (Agent.out .free) ha
  rw [show (Agent.producer id (.holding n)).out .free = 1 from rfl] at hout
  rw [hf, Bool.toNat_false] at hadded
  simp only [State.places] at haccounts
  exact ⟨by omega, hs.produced_lt hb hc ha (hs.stands _ ha).2⟩

theorem stock (hs : s.Sound c) (hb : s.Balanced c) (ha : .consumer .holding ∈ s.agents.toList)
    (hf : s.monitor.state.failed = false) : 0 < s.monitor.state.buffer.len := by
  have haccounts := hb.accounts .filled
  have hadded := hs.added_le .filled
  have hout := s.le_tally (Agent.out .filled) ha
  rw [show (Agent.consumer .holding).out .filled = 1 from rfl] at hout
  rw [hf, Bool.toNat_false] at hadded
  simp only [State.places] at haccounts
  omega

theorem events_lt (hs : s.Sound c) (hc : c.Fits)
    (hmissing : s.monitor.state.consumed < c.totalItems ∨ s.count Agent.hasReported < c.watchers) :
    s.monitor.state.events + 1 < Word.limit := by
  have hevents := hs.events
  have hbound := hs.coherent.bound
  have hconsumed := hs.coherent.consumed_le
  have hreported := hs.reported_le
  have hfits := hc.events
  omega

/-- **In a balanced system every agent is safe**: none of the checks on its way can fail. -/
theorem safe (hs : s.Sound c) (hroomy : s.Roomy) (hc : c.Fits) (ha : a ∈ s.agents.toList) : a.Safe s.monitor := by
  have hb := hs.balanced hroomy
  have hstands := hs.stands a ha
  have hwhole := hb.whole a ha
  have hlimit (side : Side) : (s.monitor.slots.get side).value + a.out side ≤ slotLimit :=
    Nat.le_trans (Nat.add_le_add_left (s.le_tally (Agent.out side) ha) _) (hb.value_add_tally_le hroomy hs hc side)
  have htotal := Monitor.totalItems_eq hs.config
  cases a with
  | producer id place =>
    cases place with
    | gate | finished => trivial
    | ready n => exact hc.value_lt (hs.producer_lt ha) hstands.2
    | holding n =>
      intro hf
      obtain ⟨hroom, hleft⟩ := hs.room hb hc ha hf
      have hlevel := hs.coherent.level
      rw [htotal]
      exact hs.coherent.takesIn hc hroom hleft (hs.events_lt hc (.inl (by omega)))
    | moved n => exact hlimit .filled
    | stopping n => exact hlimit .free
    | unwinding | failing | faulted | crashed => cases hwhole
  | consumer place =>
    cases place with
    | gate | ready | finished => trivial
    | holding =>
      intro hf
      rw [htotal]
      exact hs.coherent.givesOut hc (hs.stock hb ha hf) hf (hs.events_lt hc (.inl hstands.2))
    | moved last => exact hlimit .free
    | stopping n => exact hlimit .filled
    | unwinding | failing | faulted | crashed => cases hwhole
  | watcher id place =>
    cases place with
    | gate | finished => trivial
    | waiting =>
      intro _
      exact hs.events_lt hc (.inr (hs.reported_lt ha rfl))
    | failing | faulted | crashed => cases hwhole
  | breaker place =>
    -- a call past its mark is the only one, so the side it is about to post has nothing added yet
    have hpost : ∀ side, s.tally (Agent.added side) = 0 → s.monitor.state.failed = true →
        (s.monitor.slots.get side).value < slotLimit := by
      intro side hadded hf
      have haccounts := hb.accounts side
      have hroom := hroomy hf
      have hlen := hs.coherent.len_le
      rw [hs.config] at hroom
      cases side <;> simp only [State.places] at haccounts <;> omega
    cases place with
    | calling stage =>
      cases stage with
      | mark => trivial
      | free => exact hpost .free (hs.added_eq_zero .free ha (by decide)) hstands
      | filled => exact hpost .filled (hs.added_eq_zero .filled ha (by decide)) hstands
    | finished => trivial
    | faulted => cases hwhole
  | starter | finisher => exact hstands.elim

/-! ## A step keeps a system sound -/

theorem name_of_insertion {m : Monitor} {e : Effect} (h : Turn m a e a') (he : e.insertions = 1) :
    ∃ id n, a = .producer id (.holding n) := by
  cases h with
  | producerHandsIn id n => exact ⟨id, n, rfl⟩
  | _ => cases he

theorem name_of_removal {m : Monitor} {e : Effect} (h : Turn m a e a') (he : e.removals = 1) :
    a = .consumer .holding := by
  cases h with
  | consumerTakesOut => rfl
  | _ => cases he

/-- What is handed in finds room: the run has not failed then, so the system is balanced. -/
theorem turn_room (hs : s.Sound c) (hc : c.Fits) {e : Effect} (hr : Replaces s s' i a a')
    (ht : Turn s.monitor a e a') (he : e.Leads s.monitor s'.monitor) (hinsertion : e.insertions = 1) :
    s.monitor.state.buffer.len < c.capacity ∧ s.monitor.state.produced < c.totalItems := by
  obtain ⟨id, n, rfl⟩ := name_of_insertion ht hinsertion
  cases e with
  | handIn item =>
    exact hs.room (hs.balanced (.of_not_failed he.2.1)) hc hr.mem he.2.1
  | _ => cases hinsertion

theorem turn_stock (hs : s.Sound c) {e : Effect} (hr : Replaces s s' i a a') (ht : Turn s.monitor a e a')
    (he : e.Leads s.monitor s'.monitor) (hremoval : e.removals = 1) : 0 < s.monitor.state.buffer.len := by
  have ha := name_of_removal ht hremoval
  subst ha
  cases e with
  | takeOut =>
    exact hs.stock (hs.balanced (.of_not_failed he.2.1)) hr.mem he.2.1
  | _ => cases hremoval

/-- **A turn keeps a system balanced.** -/
theorem turn_balanced (hs : s.Sound c) (hb : s.Balanced c) {e : Effect} (hr : Replaces s s' i a a')
    (hhalted : s'.halted = a'.isCrashed) (ht : Turn s.monitor a e a') (he : e.Leads s.monitor s'.monitor)
    (hcoherent' : s'.monitor.state.Coherent c) : s'.Balanced c where
  upright := hhalted.trans (Agent.isCrashed_of_whole ht.isFaulty_eq)
  whole x hx := by
    rcases hr.mem_after hx with rfl | ⟨j, -, hj⟩
    · exact ht.isFaulty_eq
    · exact hb.whole x (List.mem_of_getElem? hj)
  accounts side := by
    have haccounts := hb.accounts side
    have hagent := ht.out_eq side
    have hmonitor := he.places_eq hs.coherent hcoherent' side
    have hout := hr.tally_eq (Agent.out side)
    have hadded := hr.tally_eq (Agent.added side)
    omega
  produced := by
    have hproduced := hb.produced
    have hagent := ht.inserts_eq hs.config (hs.stands a hr.mem)
    have hmonitor := he.numbers.1
    have htally := hr.tally_eq Agent.inserts
    omega

theorem reports_eq_of_none (hr : Replaces s s' i a a') (ha : a.report? = none) (ha' : a'.report? = none) :
    s'.reports = s.reports := by
  unfold reports
  rw [hr.after]
  exact filterMap_set _ _ i hr.before (ha'.trans ha.symm)

theorem reported_eq (hr : Replaces s s' i a a') (ha : a.report? = none) {n : Nat}
    (hn : a'.report?.isSome.toNat = n) : s'.count Agent.hasReported = s.count Agent.hasReported + n := by
  have hcount := hr.count_eq Agent.hasReported
  unfold Agent.hasReported at hcount ⊢
  rw [ha, hn] at hcount
  exact hcount

theorem turn_numbers (hs : s.Sound c) {e : Effect} (hr : Replaces s s' i a a') (ha : a.report? = none)
    (ht : Turn s.monitor a e a') (he : e.Leads s.monitor s'.monitor) :
    s'.count Agent.hasReported = s.count Agent.hasReported + e.reports ∧
      (s'.reports.map Completion.seq).Perm (List.range' (2 * c.totalItems) (s'.count Agent.hasReported)) := by
  rcases ht.report?_eq with ⟨ha', hquiet⟩ | ⟨r, ha', hseq, hreport⟩
  · have hcount := reported_eq hr ha (n := 0) (by rw [ha']; rfl)
    rw [hcount, reports_eq_of_none hr ha ha', hquiet]
    exact ⟨rfl, hs.numbers⟩
  · have hcount := reported_eq hr ha (n := 1) (by rw [ha']; rfl)
    refine ⟨by rw [hcount, hreport], ?_⟩
    -- the run is done, so the events so far are two for each item and one for each report
    have hevents : s.monitor.state.events = 2 * c.totalItems + s.count Agent.hasReported := by
      cases e with
      | announce =>
        have hall := hs.coherent.consumed_eq_of_done he.2.2.1 he.2.1
        have hevents := hs.events
        have hlevel := hs.coherent.level
        have hbound := hs.coherent.bound
        omega
      | _ => cases hreport
    have hperm : s'.reports.Perm (r :: s.reports) := by
      unfold reports
      rw [hr.after]
      exact filterMap_set_perm _ _ i hr.before ha ha'
    rw [hcount, List.range'_concat, Nat.one_mul, ← hevents, ← hseq]
    refine (hperm.map _).trans ?_
    rw [List.map_cons]
    exact (hs.numbers.cons _).trans (List.perm_append_singleton _ _).symm

/-- Whoever moved stands where it has come to, and the others stand as before. -/
theorem turn_stands (hs : s.Sound c) (hc : c.Fits) {e : Effect} (hr : Replaces s s' i a a')
    (ht : Turn s.monitor a e a') (he : e.Leads s.monitor s'.monitor) :
    ∀ x ∈ s'.agents.toList, x.Stands c s'.monitor.state := by
  obtain ⟨hstart, haborted, -⟩ := he.flags
  intro x hx
  rcases hr.mem_after hx with rfl | ⟨j, hji, hj⟩
  · exact ht.stands he hs.config hs.coherent hc.total_pos (hs.stands a hr.mem)
  refine (hs.stands x (List.mem_of_getElem? hj)).mono (hstart.trans ·) he.failed_mono haborted ?_
  by_cases hremoval : e.removals = 1
  · -- only the one consumer takes out, and it is the agent that moved
    refine .inr fun hname => hji ?_
    have ha := name_of_removal ht hremoval
    subst ha
    exact eq_of_name_eq _ hs.nodup hj hr.before hname rfl
  · have hconsumed := he.numbers.2.1
    have := e.removals_le
    exact .inl (by omega)

/-- **A turn keeps a system sound.** -/
theorem turn (hs : s.Sound c) (hc : c.Fits) {e : Effect} (hr : Replaces s s' i a a')
    (hconfig : s'.monitor.config = s.monitor.config) (hhalted : s'.halted = a'.isCrashed) (ha : a.report? = none)
    (ht : Turn s.monitor a e a') (he : e.Leads s.monitor s'.monitor) : s'.Sound c := by
  obtain ⟨hproduced, hconsumed, hevents⟩ := he.numbers
  obtain ⟨hstart, haborted, hmarks⟩ := he.flags
  obtain ⟨hreported, hnumbers⟩ := hs.turn_numbers hr ha ht he
  have hnames := hr.names_eq ht.name_eq
  have hcoherent' := he.coherent hs.config hs.coherent (hs.turn_room hc hr ht he) (hs.turn_stock hr ht he)
  refine ⟨hconfig.trans hs.config, hcoherent', ?_, ?_, hnumbers, by rw [hnames]; exact hs.nodup,
    by rw [hnames]; exact hs.known, hs.turn_stands hc hr ht he, ?_, ?_⟩
  · intro hclosed
    rw [hstart] at hclosed
    have hzero := hs.closed hclosed
    by_cases hinsertion : e.insertions = 1
    · obtain ⟨id, n, rfl⟩ := name_of_insertion ht hinsertion
      have := (hs.stands _ hr.mem).1
      rw [hclosed] at this
      cases this
    · have := e.insertions_le
      omega
  · have := hs.events
    omega
  · have hmarked := hs.marked
    have hagent := ht.isMarker_eq
    have hcount := hr.count_eq Agent.isMarker
    omega
  · intro hroomy'
    have hroomy : s.Roomy := by
      intro hf
      rw [← hconfig]
      exact hroomy' (he.failed_mono hf)
    exact hs.turn_balanced (hs.balanced hroomy) hr hhalted ht he hcoherent'

theorem fault (hs : s.Sound c) (hr : Replaces s s' i a a') (ha : a.report? = none) (hroomy : ¬ s.Roomy)
    (hfault : FaultsTo s.monitor a a' s'.monitor) : s'.Sound c := by
  have ha' := Agent.report?_of_faulty hfault.faulty
  have hreported := reported_eq hr ha (n := 0) (by rw [ha']; rfl)
  have hreports := reports_eq_of_none hr ha ha'
  have hnames := hr.names_eq hfault.name
  have hmarkers := hr.count_eq_of_eq hfault.marker
  refine ⟨hfault.config.trans hs.config, ?_, ?_, ?_, ?_, by rw [hnames]; exact hs.nodup,
    by rw [hnames]; exact hs.known, ?_, ?_, ?_⟩
  · rw [hfault.state]; exact hs.coherent
  · rw [hfault.state]; exact hs.closed
  · rw [hfault.state, hreported]; exact hs.events
  · rw [hreports, hreported]; exact hs.numbers
  · intro x hx
    rcases hr.mem_after hx with rfl | ⟨j, -, hj⟩
    · exact .of_faulty hfault.faulty
    · rw [hfault.state]; exact hs.stands x (List.mem_of_getElem? hj)
  · rw [hfault.state, hmarkers]
    exact hs.marked
  · intro hroomy'
    refine absurd (fun hf => ?_) hroomy
    rw [← hfault.config]
    exact hroomy' (by rw [hfault.state]; exact hf)

end Sound

/-- **A step of a sound system** is a turn, or, without room for a failure, ends on a fault. -/
theorem Sound.step_cases (hs : s.Sound c) (hc : c.Fits) (h : s.step i = some s') :
    ∃ a a', Replaces s s' i a a' ∧ a.report? = none ∧ s'.halted = a'.isCrashed ∧
      (TurnsTo s.monitor a a' s'.monitor ∨ ¬ s.Roomy ∧ FaultsTo s.monitor a a' s'.monitor) := by
  obtain ⟨-, a, a', hr, hstep, hhalted⟩ := step_eq_some h
  refine ⟨a, a', hr, Agent.report?_of_step hstep, hhalted, ?_⟩
  by_cases hroomy : s.Roomy
  · exact .inl (step_of_safe (hs.safe hroomy hc hr.mem) hstep)
  · have hf := failed_of_not_roomy hroomy
    exact (step_of_failed hf (hs.stands a hr.mem).isMember hstep).imp_right (⟨hroomy, ·⟩)

theorem Sound.state_of_failed (hs : s.Sound c) (hc : c.Fits) (hf : s.monitor.state.failed = true)
    (h : s.step i = some s') : s'.monitor.state = s.monitor.state := by
  obtain ⟨a, a', -, -, -, ⟨-, e, -, he⟩ | ⟨-, hfault⟩⟩ := hs.step_cases hc h
  · exact he.state_of_failed hf
  · exact hfault.state

/-- **A step keeps a system sound.** -/
theorem Sound.step (hs : s.Sound c) (hc : c.Fits) (h : s.step i = some s') : s'.Sound c := by
  obtain ⟨a, a', hr, ha, hhalted, ⟨hconfig, e, ht, he⟩ | ⟨hroomy, hfault⟩⟩ := hs.step_cases hc h
  · exact hs.turn hc hr hconfig hhalted ha ht he
  · exact hs.fault hr ha hroomy hfault

end System
end Handover
