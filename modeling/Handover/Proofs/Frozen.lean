import Handover.Proofs.Refusal
/-!
# Frozen — what a failed run leaves behind

Whoever is about to change what the mutex guards looks first whether the run has failed.  So once a run is marked as
failed nothing of it changes but the gate (`Run.SoundUnderRefusal.exec_frozen`), and a further call that fails it comes
back at once.  What the agents bring back from a run, failed or not, is what they did: a producer's count is what it put
in, the consumer's count is what was consumed, and a watcher has a report exactly if it recorded one before the failure
(`Run.SoundUnderRefusal.reports_exec`).  The places that a failure adds are there at the end, unless a counter was full
when an agent was to add one to it.
-/
namespace Handover

/-! ## A failed run changes no more -/

/-- **Nothing has changed, and the run counts as failed and not as done.** -/
structure State.Frozen (s s' : State) : Prop where
  buffer : s'.buffer = s.buffer
  produced : s'.produced = s.produced
  consumed : s'.consumed = s.consumed
  phase : s'.phase = s.phase
  events : s'.events = s.events
  journal : s'.journal = s.journal
  failed : s'.failed = true
  isDone : s'.isDone = false

theorem State.Frozen.of_gate {s s' : State} (hf : s.failed = true)
    (h : s' = { s with start := s'.start, aborted := s'.aborted }) : s.Frozen s' := by
  rw [h]
  refine ⟨rfl, rfl, rfl, rfl, rfl, rfl, hf, ?_⟩
  simp [State.isDone, hf]

theorem State.Frozen.trans {s₁ s₂ s₃ : State} (h : s₁.Frozen s₂) (h' : s₂.Frozen s₃) : s₁.Frozen s₃ :=
  ⟨h'.buffer.trans h.buffer, h'.produced.trans h.produced, h'.consumed.trans h.consumed, h'.phase.trans h.phase,
    h'.events.trans h.events, h'.journal.trans h.journal, h'.failed, h'.isDone⟩

namespace Act

variable {m : Monitor}

theorem fail_again (h : m.state.failed = true) : Act.fail m = .ok false m := by
  rw [Act.fail, bind_ok (markFailed_again h)]
  rfl

/-- The first call that fails the run adds a place to each side, if the counters have room for it. -/
theorem fail_first (hf : m.state.failed = false) (hroom : ∀ side, (m.slots.get side).value < slotLimit) :
    ∃ slots log, Act.fail m = .ok true { m with state := m.state.marked, slots := slots, log := log } ∧
      ∀ side, (slots.get side).value = (m.slots.get side).value + 1 := by
  obtain ⟨log, hmark⟩ := markFailed_first hf
  let marked : Monitor := { m with state := m.state.marked, log := log }
  obtain ⟨s₁, hfree⟩ := Slots.post_of_lt .free (hroom .free)
  obtain ⟨hvalue, hsame⟩ := Slots.post_values hfree
  change s₁.get .filled = m.slots.get .filled at hsame
  obtain ⟨s₂, hfilled⟩ := Slots.post_of_lt .filled (hsame ▸ hroom .filled)
  obtain ⟨hvalue', hsame'⟩ := Slots.post_values hfilled
  refine ⟨s₂, log, ?_, fun side => ?_⟩
  · have hfirst : post .free marked = .ok () { marked with slots := s₁ } := post_ok hfree
    have hsecond : post .filled { marked with slots := s₁ } = .ok () { marked with slots := s₂ } := post_ok hfilled
    rw [Act.fail, bind_ok hmark, if_pos rfl]
    exact (bind_ok hfirst).trans (bind_ok hsecond)
  · cases side with
    | free => exact (congrArg Semaphore.value hsame').trans hvalue
    | filled =>
      rw [← hsame]
      exact hvalue'

theorem fail_of_full (hf : m.state.failed = false) (hfull : ¬ (m.slots.get .free).value < slotLimit) :
    ∃ m', Act.fail m = .error .slotOverflow m' := by
  obtain ⟨log, hmark⟩ := markFailed_first hf
  refine ⟨{ m with state := m.state.marked, log := log }, ?_⟩
  rw [Act.fail, bind_ok hmark, if_pos rfl]
  exact bind_error (post_error (Slots.post_of_not_lt .free hfull))

end Act

theorem Agent.breaker_late {m : Monitor} (h : m.state.failed = true) :
    (Agent.breaker (.calling .mark)).step m = some (.breaker (.finished false), m) := by
  rw [Agent.step, BreakerPlace.step, FailStage.step, Act.bind_ok (Act.markFailed_again h)]
  rfl

/-! ## What the agents bring back -/

namespace Agent

/-- The count that a producer came back with. -/
def delivered : Agent → Nat
  | producer _ (.finished n) => n
  | _ => 0

theorem out_of_back {a : Agent} (h : a.isBreaker = false → a.outcome?.isSome = true) (side : Side) :
    a.out side = 0 := by
  cases a with
  | producer id place =>
    cases place with
    | finished | faulted => cases side <;> rfl
    | _ => cases h rfl
  | consumer place =>
    cases place with
    | finished | faulted => cases side <;> rfl
    | _ => cases h rfl
  | watcher | starter | finisher | breaker => cases side <;> rfl

theorem isFaulty_of_kept {a : Agent} (hkept : a.isLost = false)
    (hwhole : a.isBreaker = false → a.isFaulty = false) : a.isFaulty = false := by
  cases a with
  | breaker place =>
    cases place with
    | faulted => cases hkept
    | calling | finished => rfl
  | producer | consumer | watcher | starter | finisher => exact hwhole rfl

end Agent

namespace System

variable {c : Config} {s : System}

/-- **With all agents back the producers' counts make up what was produced**, but for what those put in that have
stopped on a fault and brought no count back. -/
theorem PutIn.delivered_iff {k : Nat → Nat} (hp : s.PutIn k)
    (hback : ∀ a ∈ s.agents.toList, a.isBreaker = false → a.outcome?.isSome = true) :
    s.tally Agent.delivered = s.monitor.state.produced ↔
      ∀ p f, .producer p (.faulted f) ∈ s.agents.toList → k p = 0 := by
  have hcount (p n : Nat) (ha : .producer p (.finished n) ∈ s.agents.toList) : n = k p :=
    hp.places (.producer p (.finished n)) ha p rfl rfl
  have hle : ∀ a ∈ s.agents.toList, a.delivered ≤ a.share k := by
    intro a ha
    cases a with
    | producer p place =>
      cases place with
      | finished n => exact Nat.le_of_eq (hcount p n ha)
      | _ => exact Nat.zero_le _
    | consumer | watcher | starter | finisher | breaker => exact Nat.le_refl _
  rw [← hp.total]
  constructor
  · intro hsum p f ha
    by_contra hsome
    exact Nat.ne_of_lt (tally_lt hle ha (Nat.pos_of_ne_zero hsome)) hsum
  · intro hnone
    refine tally_congr fun a ha => ?_
    cases a with
    | producer p place =>
      cases place with
      | finished n => exact hcount p n ha
      | faulted f => exact (hnone p f ha).symm
      | _ => cases hback _ ha rfl
    | consumer | watcher | starter | finisher | breaker => rfl

/-- **With all agents back and a failure that has added both its places**, each counter shows one place too many. -/
theorem Balanced.slots_of_back (hb : s.Balanced c) (hs : s.Sound c)
    (hback : ∀ a ∈ s.agents.toList, a.isBreaker = false → a.outcome?.isSome = true)
    (hover : .breaker (.finished true) ∈ s.agents.toList) (side : Side) :
    (s.monitor.slots.get side).value = s.monitor.state.places c side + 1 := by
  have haccounts := hb.accounts side
  have hout : s.tally (Agent.out side) = 0 := tally_eq_zero fun a ha => Agent.out_of_back (hback a ha) side
  have hle := Nat.le_trans (hs.added_le side) (Bool.toNat_le _)
  have hone : 1 ≤ s.tally (Agent.added side) := by
    have hadded := s.le_tally (Agent.added side) hover
    cases side <;> exact hadded
  omega

/-- A call that has added both its places is the one that marked the run, so none is lost. -/
theorem Sound.not_lost_of_over (hs : s.Sound c) (hover : .breaker (.finished true) ∈ s.agents.toList) :
    ∀ a ∈ s.agents.toList, a.isLost = false := by
  intro a ha
  by_contra hlost
  rw [Bool.not_eq_false] at hlost
  have hadded : 1 ≤ s.tally (Agent.added .filled) := s.le_tally (Agent.added .filled) hover
  have hcount : 0 < s.count Agent.isLost := List.countP_pos_iff.2 ⟨a, ha, hlost⟩
  have hsum : s.tally (fun x => x.added .filled + x.isLost.toNat) ≤ s.count Agent.isMarker := by
    rw [count_eq_tally]
    exact tally_le fun x _ => x.added_le .filled
  rw [tally_add, ← count_eq_tally, hs.marked] at hsum
  have hbit := Bool.toNat_le s.monitor.state.failed
  omega

/-- **With all agents back and a failure that has added both its places, the counters show one place too many exactly if
no agent has stopped on a fault.** -/
theorem BalancedOrShort.slots_iff (h : s.BalancedOrShort c) (hs : s.Sound c)
    (hback : ∀ a ∈ s.agents.toList, a.isBreaker = false → a.outcome?.isSome = true)
    (hover : .breaker (.finished true) ∈ s.agents.toList) :
    (∀ side, (s.monitor.slots.get side).value = s.monitor.state.places c side + 1) ↔
      ∀ a ∈ s.agents.toList, a.isBreaker = false → a.isFaulty = false := by
  rcases h with hb | ⟨side, hshort⟩
  · exact ⟨fun _ a ha _ => hb.whole a ha, fun _ => hb.slots_of_back hs hback hover⟩
  constructor
  · intro hslots
    -- all places of the buffer are on this side, and the counter shows no more of them than it can
    have hvalue := hslots side
    have hown := hshort.own
    rw [hshort.full] at hvalue
    unfold stake at hown
    omega
  · intro hwhole
    have hzero : s.count Agent.isFaulty = 0 :=
      count_eq_zero fun a ha => Agent.isFaulty_of_kept (hs.not_lost_of_over hover a ha) (hwhole a ha)
    exact absurd (hzero.symm.trans hshort.one) Nat.zero_ne_one

theorem BalancedOrShort.faulty_le (h : s.BalancedOrShort c) : s.count Agent.isFaulty ≤ 1 := by
  rcases h with hb | ⟨side, hshort⟩
  · rw [count_eq_zero hb.whole]
    exact Nat.zero_le 1
  · exact Nat.le_of_eq hshort.one

end System

/-! ## Who recorded the end -/

theorem Turn.of_reported {m : Monitor} {a a' : Agent} {e : Effect} (h : Turn m a e a') {id : Nat} {x : Completion}
    (ha' : a' = .watcher id (.finished (some x))) :
    a = .watcher id .waiting ∧ e = .announce ∧ x = ⟨id, m.state.consumed, m.state.events⟩ := by
  cases h with
  | watcherAnnounces =>
    cases ha'
    exact ⟨rfl, rfl, rfl⟩
  | _ => cases ha'

theorem Turn.of_waiting {m : Monitor} {a' : Agent} {e : Effect} {id : Nat} (h : Turn m (.watcher id .waiting) e a')
    (hf : m.state.failed = false) : a' = .watcher id (.finished (some ⟨id, m.state.consumed, m.state.events⟩)) := by
  cases h with
  | watcherAnnounces => rfl
  | watcherStops _ hfailed =>
    rw [hf] at hfailed
    cases hfailed

namespace Run

variable {c : Config} {r r' : Run} {i : Nat} {x : Completion}

/-- **Agent `i`, a watcher, records that it saw the end** before the run has failed, and this is its report. -/
structure Announces (r : Run) (i : Nat) (x : Completion) (r' : Run) : Prop where
  waited : r.system.agents[i]? = some (.watcher x.watcher .waiting)
  stepped : r.step (some i) = some r'
  unfailed : r.system.monitor.state.failed = false
  recorded : r'.system.monitor.state = r.system.monitor.state.announced
  total : x.totalItems = r.system.monitor.state.consumed
  seq : x.seq = r.system.monitor.state.events

def AnnouncesAlong (r : Run) (schedule : List (Option Nat)) (i : Nat) (x : Completion) : Prop :=
  ∃ before after r₁ r₂, schedule = before ++ some i :: after ∧ r.exec before = some r₁ ∧ r₁.Announces i x r₂

theorem announcesAlong_cons {who : Option Nat} {rest : List (Option Nat)} (hstep : r.step who = some r') :
    r.AnnouncesAlong (who :: rest) i x ↔ who = some i ∧ r.Announces i x r' ∨ r'.AnnouncesAlong rest i x := by
  constructor
  · rintro ⟨before, after, r₁, r₂, hsplit, hexec, hx⟩
    cases before with
    | nil =>
      obtain ⟨rfl, rfl⟩ := List.cons.inj hsplit
      cases hexec
      obtain rfl : r' = r₂ := Option.some.inj (hstep.symm.trans hx.stepped)
      exact .inl ⟨rfl, hx⟩
    | cons first before =>
      obtain ⟨rfl, rfl⟩ := List.cons.inj hsplit
      rw [Run.exec, hstep] at hexec
      exact .inr ⟨before, after, r₁, r₂, rfl, hexec, hx⟩
  · rintro (⟨rfl, hx⟩ | ⟨before, after, r₁, r₂, rfl, hexec, hx⟩)
    · exact ⟨[], rest, r, r', rfl, rfl, hx⟩
    · refine ⟨who :: before, after, r₁, r₂, rfl, ?_, hx⟩
      rw [Run.exec, hstep]
      exact hexec

def Reports (r : Run) (i : Nat) (x : Completion) : Prop :=
  r.system.agents.toList[i]? = some (.watcher x.watcher (.finished (some x)))

theorem not_reports_start (hc : c.Fits) {hooks : List Hook} (h : Run.start c hooks = .ok r) (calls : Nat) :
    ¬ (r.withCalls calls).Reports i x := by
  rw [start_eq hc.valid, Except.ok.injEq] at h
  subst h
  intro hx
  have hmem := List.mem_of_getElem? hx
  simp [withCalls] at hmem

theorem SoundUnderRefusal.reports_launch (hu : r.SoundUnderRefusal c) (h : r.launch = some r') :
    r'.Reports i x ↔ r.Reports i x := by
  cases launches h with
  | refuses | opens => exact Iff.rfl
  | acts hl => exact absurd hl hu.not_acts
  | @joins name log hl =>
    unfold Reports
    change (r.system.join (.atGate name)).agents.toList[i]? = _ ↔ _
    rw [r.system.toList_join]
    by_cases hi : i < r.system.agents.toList.length
    · rw [List.getElem?_append_left hi]
    · -- the newcomer stands at the gate, and nobody was there before
      rw [List.getElem?_append_right (Nat.le_of_not_lt hi), List.getElem?_eq_none (Nat.le_of_not_lt hi)]
      refine ⟨fun hnew => ?_, nofun⟩
      have hx := List.mem_singleton.1 (List.mem_of_getElem? hnew)
      cases name <;> cases hx

theorem SoundUnderRefusal.reports_step (hu : r.SoundUnderRefusal c) (hc : c.Fits) {who : Option Nat}
    (h : r.step who = some r') : r'.Reports i x ↔ r.Reports i x ∨ who = some i ∧ r.Announces i x r' := by
  cases who with
  | none =>
    rw [hu.reports_launch h]
    simp
  | some j =>
    obtain ⟨s, hs, rfl⟩ := Option.map_eq_some_iff.1 h
    obtain ⟨a, a', hr, hnone, -, hcases⟩ := hu.sound.step_cases hc hs
    by_cases hij : i = j
    · subst hij
      have hnot : ¬ r.Reports i x := by
        intro hx
        obtain rfl := Option.some.inj (hr.before.symm.trans hx)
        cases hnone
      constructor
      · intro hx
        obtain rfl := Option.some.inj (hr.moved.symm.trans hx)
        rcases hcases with ⟨-, e, ht, he⟩ | ⟨-, hfault⟩
        · obtain ⟨rfl, rfl, hx⟩ := ht.of_reported rfl
          obtain ⟨-, hunfailed, -, hrecorded⟩ := he
          refine .inr ⟨rfl, Array.getElem?_toList.symm.trans hr.before, h, hunfailed, hrecorded, ?_, ?_⟩
          · rw [hx]
          · rw [hx]
        · cases hfault.faulty
      · rintro (hx | ⟨-, hx⟩)
        · exact absurd hx hnot
        · obtain rfl := Option.some.inj (hr.before.symm.trans (Array.getElem?_toList.trans hx.waited))
          rcases hcases with ⟨-, e, ht, -⟩ | ⟨hfull, -⟩
          · have hreport : x = ⟨x.watcher, r.system.monitor.state.consumed, r.system.monitor.state.events⟩ := by
              rw [← hx.total, ← hx.seq]
            have hmoved := hr.moved
            rw [ht.of_waiting hx.unfailed, ← hreport] at hmoved
            exact hmoved
          · exact absurd (.of_not_failed hx.unfailed) hfull
    · have hsame : ({ r with system := s } : Run).Reports i x ↔ r.Reports i x := by
        unfold Reports
        rw [← hr.others hij]
      rw [hsame]
      refine ⟨.inl, fun hx => hx.resolve_right fun hno => hij ?_⟩
      exact (Option.some.inj hno.1).symm

/-- **Who has a report recorded the end on the way, and nobody else has one.** -/
theorem SoundUnderRefusal.reports_exec (hc : c.Fits) : ∀ (schedule : List (Option Nat)) {r r' : Run},
    r.SoundUnderRefusal c → r.exec schedule = some r' → (r'.Reports i x ↔ r.Reports i x ∨ r.AnnouncesAlong schedule i x)
  | [], r, r', _, h => by
    cases h
    refine ⟨.inl, fun hx => hx.resolve_right ?_⟩
    rintro ⟨before, after, -, -, hsplit, -⟩
    cases before <;> cases hsplit
  | who :: rest, r, r', hu, h => by
    obtain ⟨r₁, hstep, hrest⟩ := Option.bind_eq_some_iff.1 h
    rw [SoundUnderRefusal.reports_exec hc rest (hu.step hc hstep) hrest, hu.reports_step hc hstep,
      announcesAlong_cons hstep, or_assoc]

theorem SoundUnderRefusal.step_frozen (hu : r.SoundUnderRefusal c) (hc : c.Fits)
    (hf : r.system.monitor.state.failed = true) {who : Option Nat} (h : r.step who = some r') :
    r.system.monitor.state.Frozen r'.system.monitor.state := by
  cases who with
  | none =>
    cases launches h with
    | refuses | joins | opens => exact .of_gate hf rfl
    | acts hl => exact absurd hl hu.not_acts
  | some i =>
    obtain ⟨s, hs, rfl⟩ := Option.map_eq_some_iff.1 h
    have hsame := hu.sound.state_of_failed hc hf hs
    change r.system.monitor.state.Frozen s.monitor.state
    rw [hsame]
    exact .of_gate hf rfl

theorem SoundUnderRefusal.exec_frozen (hc : c.Fits) : ∀ (schedule : List (Option Nat)) {r r' : Run},
    r.SoundUnderRefusal c → r.system.monitor.state.failed = true → r.exec schedule = some r' →
    r.system.monitor.state.Frozen r'.system.monitor.state
  | [], r, r', _, hf, h => by
    cases h
    exact .of_gate hf rfl
  | who :: rest, r, r', hu, hf, h => by
    obtain ⟨r₁, hstep, hrest⟩ := Option.bind_eq_some_iff.1 h
    have hfirst := hu.step_frozen hc hf hstep
    exact hfirst.trans (SoundUnderRefusal.exec_frozen hc rest (hu.step hc hstep) hfirst.failed hrest)

theorem start_putIn (hc : c.Fits) {hooks : List Hook} (h : Run.start c hooks = .ok r) (calls : Nat) :
    (r.withCalls calls).system.PutIn fun _ => 0 := by
  rw [start_eq hc.valid, Except.ok.injEq] at h
  subst h
  refine .none ?_ rfl
  unfold System.names withCalls
  simp [Agent.name?]

theorem SoundUnderRefusal.launch_putIn (hu : r.SoundUnderRefusal c) (h : r.launch = some r') {k : Nat → Nat}
    (hp : r.system.PutIn k) : r'.system.PutIn k := by
  have hlaunched := hu.launched
  cases launches h with
  | refuses => exact hp
  | acts hl => exact absurd hl hu.not_acts
  | joins log hl =>
    rw [hl] at hlaunched
    have hjoined := hp.join (Config.not_mem_of_onward hlaunched.2.2.1 hlaunched.2.2.2)
    exact ⟨hjoined.places, hjoined.absent, hjoined.total⟩
  | opens => exact ⟨hp.places, hp.absent, hp.total⟩

/-- **All through a run what the producers have put in is counted.** -/
theorem SoundUnderRefusal.exec_putIn (hc : c.Fits) (schedule : List (Option Nat)) {k : Nat → Nat}
    (hu : r.SoundUnderRefusal c) (hp : r.system.PutIn k) (h : r.exec schedule = some r') :
    r'.system.PutIn fun p => k p + r.insertions p schedule := by
  refine (exec_insertions (P := fun k r => r.SoundUnderRefusal c ∧ r.system.PutIn k) ?_ ?_ schedule ⟨hu, hp⟩ h).2
  · rintro k r r' ⟨hu, hp⟩ hlaunch
    exact ⟨hu.launch hlaunch, hu.launch_putIn hlaunch hp⟩
  · rintro k r i s ⟨hu, hp⟩ hs
    exact ⟨hu.agent_step hc hs, hp.step hu.sound hc hs⟩

/-- **A failed run is frozen, and the agents bring back what they did.**  Take a run whose launcher may be refused any
agent, with any calls from outside that may fail it, under any schedule.  From the step that marks it as failed on,
whoever moves then, nothing changes of the buffer, the counts, the phase, the events and the journal; the run stays
failed and is not done; and a further call that fails it comes back with `false` and leaves the monitor as it is.
Nobody stops on a fault, unless the run has failed at the largest capacity, where a counter has no room for one place
more; and then it is one of them at most.  A producer that is back brings the number of items that it put in, and
together the producers put in what was produced; the consumer brings what was consumed; and a watcher has exactly the
report that it recorded on the way, before a failure.  Once all agents are back, the producers' counts make up what was
produced, unless a producer that had put items in stopped on a fault; and if a call has added both its places there is
one free place and one filled place too many exactly if no agent stopped on a fault. -/
theorem failed_run_is_frozen (hc : c.Fits) {hooks : List Hook} (hhooks : ∀ k ∈ hooks, k.step.isRefusal = true)
    (calls : Nat) (schedule : List (Option Nat)) {r₀ : Run} (hstart : Run.start c hooks = .ok r₀)
    (hexec : (r₀.withCalls calls).exec schedule = some r) :
    let m := r.system.monitor
    let agents := r.system.agents.toList
    let inserted := fun p => (r₀.withCalls calls).insertions p schedule
    (m.state.failed = true → ∀ more r', r.exec more = some r' →
      m.state.Frozen r'.system.monitor.state ∧
      Act.fail r'.system.monitor = .ok false r'.system.monitor ∧
      (Agent.breaker (.calling .mark)).step r'.system.monitor =
        some (.breaker (.finished false), r'.system.monitor)) ∧
    (((m.state.failed = true → c.capacity < slotLimit) → ∀ a ∈ agents, a.isFaulty = false) ∧
      agents.countP Agent.isFaulty ≤ 1) ∧
    ((∀ p n, .producer p (.finished n) ∈ agents → n = inserted p) ∧
      (agents.map (Agent.share inserted)).sum = m.state.produced) ∧
    (∀ n, .consumer (.finished n) ∈ agents → n = m.state.consumed) ∧
    (∀ i id report, r.system.agents[i]? = some (.watcher id (.finished report)) →
      ∀ x, report = some x ↔ (r₀.withCalls calls).AnnouncesAlong schedule i x) ∧
    ((∀ a ∈ agents, a.isBreaker = false → a.outcome?.isSome = true) →
      ((agents.map Agent.delivered).sum = m.state.produced ↔
        ∀ p f, .producer p (.faulted f) ∈ agents → inserted p = 0) ∧
      (.breaker (.finished true) ∈ agents →
        (m.slots.free.value = c.capacity - m.state.buffer.len + 1 ∧ m.slots.filled.value = m.state.buffer.len + 1 ↔
          ∀ a ∈ agents, a.isBreaker = false → a.isFaulty = false))) := by
  have hu₀ := SoundUnderRefusal.start hc hhooks hstart calls
  have hu := SoundUnderRefusal.exec hc schedule hu₀ hexec
  have hp := SoundUnderRefusal.exec_putIn hc schedule hu₀ (start_putIn hc hstart calls) hexec
  simp only [Nat.zero_add] at hp
  refine ⟨fun hf more r' hmore => ?_, ⟨fun hroom => ?_, hu.accounts.faulty_le⟩,
    ⟨fun p n hn => hp.places (.producer p (.finished n)) hn p rfl rfl, hp.total⟩,
    fun n hn => (hu.sound.stands _ hn).2.1.symm,
    fun i id report hi x => ?_, fun hback => ⟨hp.delivered_iff hback, fun hover => ?_⟩⟩
  · have hfrozen := SoundUnderRefusal.exec_frozen hc more hu hf hmore
    exact ⟨hfrozen, Act.fail_again hfrozen.failed, Agent.breaker_late hfrozen.failed⟩
  · refine (hu.sound.balanced fun hf => ?_).whole
    rw [hu.sound.config]
    exact hroom hf
  · have hi' := Array.getElem?_toList.trans hi
    have hreports := SoundUnderRefusal.reports_exec (i := i) (x := x) hc schedule hu₀ hexec
    rw [or_iff_right (not_reports_start hc hstart calls)] at hreports
    rw [← hreports]
    constructor
    · rintro rfl
      have hwatcher := (hu.sound.stands _ (List.mem_of_getElem? hi')).2.1
      rw [← hwatcher] at hi'
      exact hi'
    · intro hx
      cases hi'.symm.trans hx
      rfl
  · rw [← hu.accounts.slots_iff hu.sound hback hover]
    exact ⟨fun hslots side => by cases side; exacts [hslots.1, hslots.2], fun hslots => ⟨hslots .free, hslots .filled⟩⟩

/-- The last item is out and one watcher has recorded the end when a call fails the run.  The other watcher has passed
the gate, the consumer has a permit to pass on, and a second call comes too late. -/
theorem failed_run_is_frozen_at_the_end :
    let c : Config := { capacity := 1, producers := 1, itemsPerProducer := 1, watchers := 2 }
    let hooks : List Hook := [⟨.producer 1, .refuse "no more producers"⟩]
    let first := List.replicate 5 none ++ [5, 5, 5, 5, 2, 2, 2, 3, 3, 4, 0].map some
    let more := [1, 4, 0, 2, 0].map some
    c.Fits ∧ (∀ k ∈ hooks, k.step.isRefusal = true) ∧ ∃ r₀ r₁ r, Run.start c hooks = .ok r₀ ∧
      (r₀.withCalls 2).exec first = some r₁ ∧ r₁.exec more = some r ∧ r₁.system.monitor.state.failed = true ∧
      r.system.agents = #[.breaker (.finished true), .breaker (.finished false), .consumer (.finished 1),
        .watcher 0 (.finished (some ⟨0, 1, 2⟩)), .watcher 1 (.finished none), .producer 0 (.finished 1)] ∧
      r₁.system.monitor.state.Frozen r.system.monitor.state ∧
      Act.fail r.system.monitor = .ok false r.system.monitor ∧
      1 = (r₀.withCalls 2).insertions 0 (first ++ more) ∧
      (r.system.agents.toList.map Agent.delivered).sum = r.system.monitor.state.produced ∧
      1 = r.system.monitor.state.consumed ∧
      (r₀.withCalls 2).AnnouncesAlong (first ++ more) 3 ⟨0, 1, 2⟩ ∧
      (∀ x, ¬ (r₀.withCalls 2).AnnouncesAlong (first ++ more) 4 x) ∧
      r.system.monitor.slots.free.value = 1 - r.system.monitor.state.buffer.len + 1 ∧
      r.system.monitor.slots.filled.value = r.system.monitor.state.buffer.len + 1 := by
  intro c hooks first more
  have hc : c.Fits := ⟨by decide, by decide, by decide⟩
  have hhooks : ∀ k ∈ hooks, k.step.isRefusal = true := by decide
  obtain ⟨r₀, r₁, hstart, hfirst, hseen⟩ := exists_exec_of (Run.start c hooks) 2 first
    (fun r => (r.system.monitor.state.failed, (r.exec more).map (·.system.agents)))
    (b := (true, some #[.breaker (.finished true), .breaker (.finished false), .consumer (.finished 1),
      .watcher 0 (.finished (some ⟨0, 1, 2⟩)), .watcher 1 (.finished none), .producer 0 (.finished 1)]))
    (by decide +kernel)
  obtain ⟨hfailed, hlast⟩ := Prod.mk.inj hseen
  obtain ⟨r, hmore, hagents⟩ := Option.map_eq_some_iff.1 hlast
  have hexec : (r₀.withCalls 2).exec (first ++ more) = some r := by
    rw [exec_append, hfirst]
    exact hmore
  obtain ⟨hfrozen, hagain, -⟩ := (failed_run_is_frozen hc hhooks 2 first hstart hfirst).1 hfailed more r hmore
  obtain ⟨-, -, hproducers, hconsumer, hwatchers, hback⟩ :=
    failed_run_is_frozen hc hhooks 2 (first ++ more) hstart hexec
  obtain ⟨hsum, hslots⟩ := hback (by rw [hagents]; decide)
  have hsilent (x : Completion) : ¬ (r₀.withCalls 2).AnnouncesAlong (first ++ more) 4 x := by
    intro hx
    cases (hwatchers 4 1 none (by rw [hagents]; rfl) x).2 hx
  have hnone (p : Nat) (f : Fault) (ha : .producer p (.faulted f) ∈ r.system.agents.toList) :
      (r₀.withCalls 2).insertions p (first ++ more) = 0 := by
    rw [hagents] at ha
    simp at ha
  exact ⟨hc, hhooks, r₀, r₁, r, hstart, hfirst, hmore, hfailed, hagents, hfrozen, hagain,
    hproducers.1 0 1 (by rw [hagents]; decide), hsum.2 hnone, hconsumer 1 (by rw [hagents]; decide),
    (hwatchers 3 0 _ (by rw [hagents]; rfl) ⟨0, 1, 2⟩).1 rfl, hsilent,
    (hslots (by rw [hagents]; decide)).2 (by rw [hagents]; decide)⟩

/-- **With the largest capacity a producer can lose a place of a failed run.**  It holds a permit when a call adds both
its places, so the free places fill their counter, and there is no room for the one that it gives back. -/
theorem largest_capacity_loses_a_place :
    let c : Config := { capacity := 2147483647, producers := 1, itemsPerProducer := 1, watchers := 1 }
    let schedule := List.replicate 4 none ++ [3, 3, 0, 0, 0, 3, 3, 3, 1, 2].map some
    c.validate = .ok () ∧ ∃ r₀ r, Run.start c [] = .ok r₀ ∧ (r₀.withCalls 1).exec schedule = some r ∧
      r.system.agents = #[.breaker (.finished true), .consumer (.finished 0), .watcher 0 (.finished none),
        .producer 0 (.faulted .slotOverflow)] ∧
      r.system.monitor.state.buffer.len = 0 ∧ r.system.monitor.slots.filled.value = 1 ∧
      r.system.monitor.slots.free.value = c.capacity ∧
      r.system.monitor.slots.free.value ≠ c.capacity - r.system.monitor.state.buffer.len + 1 := by
  intro c schedule
  obtain ⟨r₀, r, hstart, hexec, hseen⟩ := exists_exec c 1 schedule
    (fun r => (r.system.agents, r.system.monitor.state.buffer.len, r.system.monitor.slots.filled.value,
      r.system.monitor.slots.free.value))
    (b := (#[.breaker (.finished true), .consumer (.finished 0), .watcher 0 (.finished none),
      .producer 0 (.faulted .slotOverflow)], 0, 1, 2147483647)) (by decide +kernel)
  obtain ⟨hagents, hlen, hfilled, hfree⟩ := by simpa only [Prod.mk.injEq] using hseen
  refine ⟨by decide, r₀, r, hstart, hexec, hagents, hlen, hfilled, hfree, ?_⟩
  rw [hfree, hlen]
  decide

end Run
end Handover
