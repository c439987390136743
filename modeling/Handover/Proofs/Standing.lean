import Handover.Proofs.Coherence
/-!
# Standing — what an agent's place says

The place of an agent tells which places of the buffer it keeps away from the counters (`Agent.out`), which ones it
added to them (`Agent.added`), how many items it has put in (`Agent.inserts`), and what must be true of the guarded
state for the agent to stand there (`Agent.Stands`).  For each effect one lemma says how a turn with that effect
changes the places kept away and added; together with the effect itself this is the whole accounting of permits.
-/
namespace Handover
namespace Agent

/-- A producer with a permit that it has neither used nor given back. -/
def holdsFree : Agent → Bool
  | producer _ (.holding _) | producer _ (.stopping _) | producer _ (.unwinding _) => true
  | _ => false

/-- A producer that has put its item in and not yet passed the permit on. -/
def owesFilled : Agent → Bool
  | producer _ (.moved _) => true
  | _ => false

/-- A consumer with a permit that it has neither used nor given back. -/
def holdsFilled : Agent → Bool
  | consumer .holding | consumer (.stopping _) | consumer (.unwinding _) => true
  | _ => false

/-- A consumer that has taken an item out and not yet passed the permit on. -/
def owesFree : Agent → Bool
  | consumer (.moved _) => true
  | _ => false

/-- A call from outside that has added its free place. -/
def addedFree : Agent → Bool
  | breaker (.calling .filled) | breaker (.finished true) => true
  | _ => false

/-- A call from outside that has added its filled place. -/
def addedFilled : Agent → Bool
  | breaker (.finished true) => true
  | _ => false

def report? : Agent → Option Completion
  | watcher _ (.finished r) => r
  | _ => none

def hasReported (a : Agent) : Bool := a.report?.isSome

/-- The places of a side that the agent keeps away from its counter. -/
def out : Side → Agent → Nat
  | .free, a => a.holdsFree.toNat + a.owesFree.toNat
  | .filled, a => a.owesFilled.toNat + a.holdsFilled.toNat

def added : Side → Agent → Nat
  | .free, a => a.addedFree.toNat
  | .filled, a => a.addedFilled.toNat

def inserts : Agent → Nat
  | producer _ (.ready n) | producer _ (.holding n) | producer _ (.stopping n) | producer _ (.finished n) => n
  | producer _ (.moved n) => n + 1
  | _ => 0

/-- **What must be true of the guarded state for the agent to stand where it stands.**  An agent past the gate has found
it open; a producer has items left to make, and the consumer items left to take, until it comes back; whoever leaves
early has found the run aborted or failed.  Of an agent that met a fault nothing is asked. -/
def Stands (c : Config) (s : State) : Agent → Prop
  | producer _ (.ready n) | producer _ (.holding n) | producer _ (.moved n) => s.start = true ∧ n < c.itemsPerProducer
  | producer _ (.stopping n) => s.start = true ∧ n < c.itemsPerProducer ∧ s.failed = true
  | producer _ (.finished n) => s.start = true ∧ n ≤ c.itemsPerProducer ∧
      (n = c.itemsPerProducer ∨ s.aborted = true ∨ s.failed = true)
  | consumer .gate => s.consumed = 0
  | consumer .ready | consumer .holding | consumer (.moved none) => s.start = true ∧ s.consumed < c.totalItems
  | consumer (.moved (some n)) => s.start = true ∧ s.consumed = n ∧ n = c.totalItems
  | consumer (.stopping n) => s.start = true ∧ s.consumed = n ∧ s.failed = true
  | consumer (.finished n) => s.start = true ∧ s.consumed = n ∧
      (n = c.totalItems ∨ s.aborted = true ∨ s.failed = true)
  | watcher _ .waiting => s.start = true
  | watcher _ (.finished none) => s.start = true ∧ (s.aborted = true ∨ s.failed = true)
  | watcher id (.finished (some r)) => s.start = true ∧ r.watcher = id ∧ r.totalItems = c.totalItems
  | breaker (.calling .free) | breaker (.calling .filled) | breaker (.finished _) => s.failed = true
  | starter _ | finisher _ => False
  | _ => True

theorem Stands.isMember {c : Config} {s : State} {a : Agent} (h : a.Stands c s) : a.isMember = true := by
  cases a with
  | starter | finisher => exact h.elim
  | producer | consumer | watcher | breaker => rfl

theorem report?_of_faulty {a : Agent} (h : a.isFaulty = true) : a.report? = none := by
  cases a with
  | watcher id place =>
    cases place with
    | finished => cases h
    | gate | waiting | failing | faulted | crashed => rfl
  | producer | consumer | starter | finisher | breaker => rfl

theorem report?_of_step {a a' : Agent} {m m' : Monitor} (h : a.step m = some (a', m')) : a.report? = none := by
  cases a with
  | watcher id place =>
    cases place with
    | finished => cases h
    | gate | waiting | failing | faulted | crashed => rfl
  | producer | consumer | starter | finisher | breaker => rfl

theorem isCrashed_of_whole {a : Agent} (h : a.isFaulty = false) : a.isCrashed = false := by
  cases a with
  | producer id place =>
    cases place with
    | crashed => cases h
    | _ => rfl
  | consumer place =>
    cases place with
    | crashed => cases h
    | _ => rfl
  | watcher id place =>
    cases place with
    | crashed => cases h
    | _ => rfl
  | starter | finisher | breaker => rfl

/-- What others do does not move an agent: they may open the gate or fail the run, and only the consumer looks at what
was consumed. -/
theorem Stands.mono {c : Config} {s s' : State} {a : Agent} (h : a.Stands c s)
    (hstart : s.start = true → s'.start = true) (hfailed : s.failed = true → s'.failed = true)
    (haborted : s'.aborted = s.aborted) (hconsumed : s'.consumed = s.consumed ∨ a.name? ≠ some .consumer) :
    a.Stands c s' := by
  cases a with
  | producer id place =>
    cases place with
    | ready | holding | moved => exact ⟨hstart h.1, h.2⟩
    | stopping => exact ⟨hstart h.1, h.2.1, hfailed h.2.2⟩
    | finished => exact ⟨hstart h.1, h.2.1, h.2.2.imp_right (Or.imp (haborted.trans ·) hfailed)⟩
    | gate | unwinding | failing | faulted | crashed => trivial
  | consumer place =>
    have hc : s'.consumed = s.consumed := hconsumed.resolve_right (fun hn => hn rfl)
    cases place with
    | gate => exact hc.trans h
    | ready | holding => exact ⟨hstart h.1, by rw [hc]; exact h.2⟩
    | moved last =>
      cases last with
      | none => exact ⟨hstart h.1, by rw [hc]; exact h.2⟩
      | some n => exact ⟨hstart h.1, hc.trans h.2.1, h.2.2⟩
    | stopping => exact ⟨hstart h.1, hc.trans h.2.1, hfailed h.2.2⟩
    | finished => exact ⟨hstart h.1, hc.trans h.2.1, h.2.2.imp_right (Or.imp (haborted.trans ·) hfailed)⟩
    | unwinding | failing | faulted | crashed => trivial
  | watcher id place =>
    cases place with
    | waiting => exact hstart h
    | finished r =>
      cases r with
      | none => exact ⟨hstart h.1, h.2.imp (haborted.trans ·) hfailed⟩
      | some r => exact ⟨hstart h.1, h.2⟩
    | gate | failing | faulted | crashed => trivial
  | breaker place =>
    cases place with
    | calling stage =>
      cases stage with
      | mark => trivial
      | free | filled => exact hfailed h
    | finished => exact hfailed h
    | faulted => trivial
  | starter | finisher => exact h.elim

theorem Stands.of_faulty {c : Config} {s : State} {a : Agent} (h : a.isFaulty = true) : a.Stands c s := by
  cases a with
  | producer id place =>
    cases place with
    | unwinding | failing | faulted | crashed => trivial
    | gate | ready | holding | moved | stopping | finished => cases h
  | consumer place =>
    cases place with
    | unwinding | failing | faulted | crashed => trivial
    | gate | ready | holding | moved | stopping | finished => cases h
  | watcher id place =>
    cases place with
    | failing | faulted | crashed => trivial
    | gate | waiting | finished => cases h
  | breaker place =>
    cases place with
    | faulted => trivial
    | calling | finished => cases h
  | starter | finisher => cases h

end Agent

/-! ## Effects in numbers -/

namespace Effect

def insertions : Effect → Nat
  | handIn _ => 1
  | _ => 0

def removals : Effect → Nat
  | takeOut => 1
  | _ => 0

theorem insertions_le (e : Effect) : e.insertions ≤ 1 := by
  cases e <;> simp [insertions]

theorem removals_le (e : Effect) : e.removals ≤ 1 := by
  cases e <;> simp [removals]

def reports : Effect → Nat
  | announce => 1
  | _ => 0

def marks : Effect → Nat
  | mark => 1
  | _ => 0

/-- Places of a side that the agent has out after the effect and had not before. -/
def gains : Effect → Side → Nat
  | take side, x => if x = side then 1 else 0
  | handIn _, .filled => 1
  | takeOut, .free => 1
  | _, _ => 0

/-- Places of a side that the agent had out before the effect, or that it adds. -/
def loses : Effect → Side → Nat
  | post side, x => if x = side then 1 else 0
  | handIn _, .free => 1
  | takeOut, .filled => 1
  | _, _ => 0

end Effect

theorem Side.eq_other {x y : Side} (h : x ≠ y) : x = y.other := by
  cases x <;> cases y
  · exact absurd rfl h
  · rfl
  · rfl
  · exact absurd rfl h

def State.places (c : Config) (s : State) : Side → Nat
  | .free => c.capacity - s.buffer.len
  | .filled => s.buffer.len

/-! ## What a turn does to the agent -/

namespace Turn

variable {m : Monitor} {a a' : Agent} {e : Effect}

theorem name_eq (h : Turn m a e a') : a'.name? = a.name? := by
  cases h <;> rfl

theorem isBreaker_eq (h : Turn m a e a') : a'.isBreaker = a.isBreaker := by
  cases h <;> rfl

theorem report?_eq (h : Turn m a e a') :
    a'.report? = none ∧ e.reports = 0 ∨ ∃ r, a'.report? = some r ∧ r.seq = m.state.events ∧ e.reports = 1 := by
  cases h with
  | watcherAnnounces id => exact .inr ⟨_, rfl, rfl, rfl⟩
  | _ => exact .inl ⟨rfl, rfl⟩

theorem isMarker_eq (h : Turn m a e a') : a'.isMarker.toNat = a.isMarker.toNat + e.marks := by
  cases h with
  | producerEnters | producerPasses => unfold ProducerPlace.upTo; split <;> rfl
  | consumerPasses last => cases last <;> rfl
  | _ => rfl

theorem isFaulty_eq (h : Turn m a e a') : a'.isFaulty = false := by
  cases h with
  | producerEnters | producerPasses => unfold ProducerPlace.upTo; split <;> rfl
  | consumerPasses last => cases last <;> rfl
  | _ => rfl

theorem whole_before (h : Turn m a e a') : a.isFaulty = false := by
  cases h <;> rfl

/-- **What a turn does to the places kept away and added**, all in one equation. -/
theorem out_eq (h : Turn m a e a') (side : Side) :
    a'.out side + a.added side + e.loses side = a.out side + a'.added side + e.gains side := by
  cases h with
  | producerEnters | producerPasses =>
    unfold ProducerPlace.upTo
    split <;> cases side <;> rfl
  | consumerPasses last => cases last <;> cases side <;> rfl
  | _ => cases side <;> rfl

theorem inserts_eq {c : Config} (h : Turn m a e a') (hc : m.config = c) (hstands : a.Stands c m.state) :
    a'.inserts = a.inserts + e.insertions := by
  cases h with
  | producerEnters id =>
    change (Agent.producer id (.upTo m.config.itemsPerProducer 0)).inserts = 0
    unfold ProducerPlace.upTo
    split
    · rfl
    · change m.config.itemsPerProducer = 0
      omega
  | producerPasses id n =>
    change (Agent.producer id (.upTo m.config.itemsPerProducer (n + 1))).inserts = n + 1
    have hn : n < m.config.itemsPerProducer := by rw [hc]; exact hstands.2
    unfold ProducerPlace.upTo
    split
    · rfl
    · change m.config.itemsPerProducer = n + 1
      omega
  | consumerPasses last => cases last <;> rfl
  | _ => rfl

theorem stands {m' : Monitor} {c : Config} (h : Turn m a e a') (he : e.Leads m m') (hc : m.config = c)
    (hcoherent : m.state.Coherent c) (hpos : 0 < c.totalItems) (hstands : a.Stands c m.state) :
    a'.Stands c m'.state := by
  have hupTo : ∀ (id n : Nat), m'.state.start = true → n ≤ m.config.itemsPerProducer →
      (Agent.producer id (.upTo m.config.itemsPerProducer n)).Stands c m'.state := by
    intro id n hstart hn
    unfold ProducerPlace.upTo
    split
    · rename_i hlt
      exact ⟨hstart, by rw [← hc]; exact hlt⟩
    · exact ⟨hstart, by rw [hc], .inl (by rw [hc])⟩
  cases h with
  | producerLeaves id hstart haway =>
    rw [he.1]
    exact ⟨hstart, Nat.zero_le _, .inr (by simpa [Monitor.turnsAway] using haway)⟩
  | producerEnters id hstart haway => exact hupTo id 0 (by rw [he.1]; exact hstart) (Nat.zero_le _)
  | producerTakes id n => rw [he.1]; exact hstands
  | producerHandsIn id n =>
    obtain ⟨-, -, b, -, hs⟩ := he
    rw [hs]
    exact hstands
  | producerStops id n hfailed => rw [he.1]; exact ⟨hstands.1, hstands.2, hfailed⟩
  | producerPasses id n =>
    refine hupTo id (n + 1) (by rw [he.1]; exact hstands.1) ?_
    rw [hc]
    exact hstands.2
  | producerGivesBack id n =>
    rw [he.1]
    exact ⟨hstands.1, Nat.le_of_lt hstands.2.1, .inr (.inr hstands.2.2)⟩
  | consumerLeaves hstart haway =>
    rw [he.1]
    exact ⟨hstart, hstands, .inr (by simpa [Monitor.turnsAway] using haway)⟩
  | consumerEnters hstart haway =>
    rw [he.1]
    refine ⟨hstart, ?_⟩
    rw [show m.state.consumed = 0 from hstands]
    exact hpos
  | consumerTakes => rw [he.1]; exact hstands
  | consumerTakesOut =>
    obtain ⟨-, -, item, b, -, hs⟩ := he
    have hlt : m.state.consumed < c.totalItems := hstands.2
    have htotal := Monitor.totalItems_eq hc
    rw [hs, htotal]
    by_cases hlast : m.state.consumed + 1 = c.totalItems
    · rw [if_pos hlast]
      exact ⟨hstands.1, rfl, hlast⟩
    · rw [if_neg hlast]
      refine ⟨hstands.1, ?_⟩
      change m.state.consumed + 1 < c.totalItems
      omega
  | consumerStops hfailed => rw [he.1]; exact ⟨hstands.1, rfl, hfailed⟩
  | consumerPasses last =>
    rw [he.1]
    cases last with
    | none => exact hstands
    | some n => exact ⟨hstands.1, hstands.2.1, .inl hstands.2.2⟩
  | consumerGivesBack n => rw [he.1]; exact ⟨hstands.1, hstands.2.1, .inr (.inr hstands.2.2)⟩
  | watcherLeaves id hstart haway =>
    rw [he.1]
    exact ⟨hstart, by simpa [Monitor.turnsAway] using haway⟩
  | watcherEnters id hstart haway => rw [he.1]; exact hstart
  | watcherAnnounces id =>
    obtain ⟨-, hf, hdone, hs⟩ := he
    rw [hs]
    exact ⟨hstands, rfl, hcoherent.consumed_eq_of_done hdone hf⟩
  | watcherStops id hfailed => rw [he.1]; exact ⟨hstands, .inr hfailed⟩
  | breakerMarks => rw [he.2.2]; rfl
  | breakerLate hfailed => rw [he.1]; exact hfailed
  | breakerFrees => rw [he.1]; exact hstands
  | breakerFills => rw [he.1]; exact hstands

end Turn

/-! ## What an effect does to the guarded state -/

namespace Effect.Leads

variable {m m' : Monitor} {e : Effect}

/-- **The counters after an effect.** -/
theorem numbers (h : e.Leads m m') :
    m'.state.produced = m.state.produced + e.insertions ∧ m'.state.consumed = m.state.consumed + e.removals ∧
      m'.state.events = m.state.events + e.insertions + e.removals + e.reports := by
  cases e with
  | quiet | take | post => rw [h.1]; exact ⟨rfl, rfl, rfl⟩
  | handIn item =>
    obtain ⟨-, -, b, -, hs⟩ := h
    rw [hs]
    exact ⟨rfl, rfl, rfl⟩
  | takeOut =>
    obtain ⟨-, -, item, b, -, hs⟩ := h
    rw [hs]
    exact ⟨rfl, rfl, rfl⟩
  | announce => rw [h.2.2.2]; exact ⟨rfl, rfl, rfl⟩
  | mark => rw [h.2.2]; exact ⟨rfl, rfl, rfl⟩

/-- **The flags after an effect**: agents leave the gate and its verdict alone, and a failure is marked once. -/
theorem flags (h : e.Leads m m') :
    m'.state.start = m.state.start ∧ m'.state.aborted = m.state.aborted ∧
      m'.state.failed.toNat = m.state.failed.toNat + e.marks := by
  cases e with
  | quiet | take | post => rw [h.1]; exact ⟨rfl, rfl, rfl⟩
  | handIn item =>
    obtain ⟨-, -, b, -, hs⟩ := h
    rw [hs]
    exact ⟨rfl, rfl, rfl⟩
  | takeOut =>
    obtain ⟨-, -, item, b, -, hs⟩ := h
    rw [hs]
    exact ⟨rfl, rfl, rfl⟩
  | announce => rw [h.2.2.2]; exact ⟨rfl, rfl, rfl⟩
  | mark => rw [h.2.2, h.2.1]; exact ⟨rfl, rfl, rfl⟩

theorem failed_mono (h : e.Leads m m') (hf : m.state.failed = true) : m'.state.failed = true := by
  have := h.flags.2.2
  rw [hf] at this
  cases hf' : m'.state.failed with
  | true => rfl
  | false =>
    rw [hf', Bool.toNat_true, Bool.toNat_false] at this
    omega

theorem state_of_failed (h : e.Leads m m') (hf : m.state.failed = true) : m'.state = m.state := by
  have hnever {P : Prop} (hno : m.state.failed = false) : P := absurd (hf.symm.trans hno) nofun
  cases e with
  | quiet | take | post => exact h.1
  | handIn | takeOut | announce | mark => exact hnever h.2.1

/-- **An effect keeps the state coherent**, where it finds room for what it hands in and an item to take out. -/
theorem coherent {c : Config} (h : e.Leads m m') (hc : m.config = c) (hcoherent : m.state.Coherent c)
    (hin : e.insertions = 1 → m.state.buffer.len < c.capacity ∧ m.state.produced < c.totalItems)
    (hout : e.removals = 1 → 0 < m.state.buffer.len) : m'.state.Coherent c := by
  have htotal := Monitor.totalItems_eq hc
  cases e with
  | quiet | take | post => rw [h.1]; exact hcoherent
  | handIn item =>
    obtain ⟨-, -, b, hb, hs⟩ := h
    rw [hs, htotal]
    exact (hcoherent.handedIn hb (hin rfl).1 (hin rfl).2).1
  | takeOut =>
    obtain ⟨-, -, item, b, hb, hs⟩ := h
    rw [hs, htotal]
    exact (hcoherent.takenOut hb (hout rfl)).1
  | announce => rw [h.2.2.2]; exact hcoherent.announced
  | mark => rw [h.2.2]; exact hcoherent.marked

/-- **What an effect does to a counter and to the buffer's places**, the other half of the accounting. -/
theorem places_eq {c : Config} (h : e.Leads m m') (hcoherent : m.state.Coherent c) (hcoherent' : m'.state.Coherent c)
    (side : Side) :
    (m'.slots.get side).value + m.state.places c side + e.gains side =
      (m.slots.get side).value + m'.state.places c side + e.loses side := by
  have hlevel := hcoherent.level
  have hlevel' := hcoherent'.level
  have hlen := hcoherent.len_le
  have hlen' := hcoherent'.len_le
  obtain ⟨hproduced, hconsumed, -⟩ := h.numbers
  cases e with
  | quiet => rw [h.1, h.2]; rfl
  | take x =>
    obtain ⟨hown, hother⟩ := Slots.take?_values h.2
    rw [h.1]
    by_cases hx : side = x
    · subst hx
      simp only [gains, loses, if_true]
      omega
    · rw [← Side.eq_other hx] at hother
      rw [hother]
      simp only [gains, loses, if_neg hx]
  | post x =>
    obtain ⟨hown, hother⟩ := Slots.post_values h.2
    rw [h.1]
    by_cases hx : side = x
    · subst hx
      simp only [gains, loses, if_true]
      omega
    · rw [← Side.eq_other hx] at hother
      rw [hother]
      simp only [gains, loses, if_neg hx]
  | handIn | takeOut | announce | mark =>
    rw [h.1]
    simp only [insertions, removals] at hproduced hconsumed
    cases side <;> simp only [State.places, gains, loses] <;> omega

end Effect.Leads
end Handover
