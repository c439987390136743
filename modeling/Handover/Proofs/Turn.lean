import Handover.Proofs.Deed
import Handover.Proofs.Ring
/-!
# Turn — the steps that meet no fault

`Turn m a e a'` is the table of the steps that meet no fault: where an agent goes from its place, and which `Effect` the
step has on the monitor.  `Agent.Safe` says of each place what has to hold there for the next step to meet no fault.
Every step of a safe agent is a turn (`step_of_safe`).  In a failed run every step is a turn or ends at a place of the
agents that stopped on a fault, and it leaves the guarded state alone (`step_of_failed`).
-/
namespace Handover

/-- What a step that meets no fault does to a monitor. -/
inductive Effect where
  | quiet
  | take (side : Side)
  | post (side : Side)
  | handIn (item : Item)
  | takeOut
  | announce
  | mark

/-- **A monitor before and after an effect.** -/
def Effect.Leads (m m' : Monitor) : Effect → Prop
  | quiet => m'.state = m.state ∧ m'.slots = m.slots
  | take side => m'.state = m.state ∧ m.slots.take? side = some m'.slots
  | post side => m'.state = m.state ∧ m.slots.post side = .ok m'.slots
  | handIn item => m'.slots = m.slots ∧ m.state.failed = false ∧
      ∃ b, m.state.buffer.insert item = .ok b ∧ m'.state = m.state.handedIn m.totalItems item b
  | takeOut => m'.slots = m.slots ∧ m.state.failed = false ∧
      ∃ item b, m.state.buffer.remove = .ok (item, b) ∧ m'.state = m.state.takenOut m.totalItems item b
  | announce => m'.slots = m.slots ∧ m.state.failed = false ∧ m.state.done = true ∧ m'.state = m.state.announced
  | mark => m'.slots = m.slots ∧ m.state.failed = false ∧ m'.state = m.state.marked

/-- **The table of the steps that meet no fault.** -/
inductive Turn (m : Monitor) : Agent → Effect → Agent → Prop where
  | producerLeaves (id : Nat) : m.state.start = true → m.turnsAway = true →
      Turn m (.producer id .gate) .quiet (.producer id (.finished 0))
  | producerEnters (id : Nat) : m.state.start = true → m.turnsAway = false →
      Turn m (.producer id .gate) .quiet (.producer id (.upTo m.config.itemsPerProducer 0))
  | producerTakes (id n : Nat) :
      Turn m (.producer id (.ready n)) (.take .free) (.producer id (.holding n))
  | producerHandsIn (id n : Nat) :
      Turn m (.producer id (.holding n)) (.handIn (.of id n)) (.producer id (.moved n))
  | producerStops (id n : Nat) : m.state.failed = true →
      Turn m (.producer id (.holding n)) .quiet (.producer id (.stopping n))
  | producerPasses (id n : Nat) :
      Turn m (.producer id (.moved n)) (.post .filled) (.producer id (.upTo m.config.itemsPerProducer (n + 1)))
  | producerGivesBack (id n : Nat) :
      Turn m (.producer id (.stopping n)) (.post .free) (.producer id (.finished n))
  | consumerLeaves : m.state.start = true → m.turnsAway = true →
      Turn m (.consumer .gate) .quiet (.consumer (.finished 0))
  | consumerEnters : m.state.start = true → m.turnsAway = false →
      Turn m (.consumer .gate) .quiet (.consumer .ready)
  | consumerTakes : Turn m (.consumer .ready) (.take .filled) (.consumer .holding)
  | consumerTakesOut : Turn m (.consumer .holding) .takeOut
      (.consumer (.moved (if m.state.consumed + 1 = m.totalItems then some (m.state.consumed + 1) else none)))
  | consumerStops : m.state.failed = true →
      Turn m (.consumer .holding) .quiet (.consumer (.stopping m.state.consumed))
  | consumerPasses (last : Option Nat) :
      Turn m (.consumer (.moved last)) (.post .free) (.consumer (last.elim .ready .finished))
  | consumerGivesBack (n : Nat) : Turn m (.consumer (.stopping n)) (.post .filled) (.consumer (.finished n))
  | watcherLeaves (id : Nat) : m.state.start = true → m.turnsAway = true →
      Turn m (.watcher id .gate) .quiet (.watcher id (.finished none))
  | watcherEnters (id : Nat) : m.state.start = true → m.turnsAway = false →
      Turn m (.watcher id .gate) .quiet (.watcher id .waiting)
  | watcherAnnounces (id : Nat) : Turn m (.watcher id .waiting) .announce
      (.watcher id (.finished (some ⟨id, m.state.consumed, m.state.events⟩)))
  | watcherStops (id : Nat) : m.state.failed = true →
      Turn m (.watcher id .waiting) .quiet (.watcher id (.finished none))
  | breakerMarks : Turn m (.breaker (.calling .mark)) .mark (.breaker (.calling .free))
  | breakerLate : m.state.failed = true → Turn m (.breaker (.calling .mark)) .quiet (.breaker (.finished false))
  | breakerFrees : Turn m (.breaker (.calling .free)) (.post .free) (.breaker (.calling .filled))
  | breakerFills : Turn m (.breaker (.calling .filled)) (.post .filled) (.breaker (.finished true))

namespace State

structure TakesIn (s : State) (total : Nat) : Prop where
  ring : s.buffer.Holds s.buffer.toList
  room : s.buffer.len < s.buffer.capacity
  produced : s.produced + 1 < Word.limit
  events : s.events + 1 < Word.limit
  last : s.produced + 1 = total → s.phase = .running

structure GivesOut (s : State) (total : Nat) : Prop where
  ring : s.buffer.Holds s.buffer.toList
  item : 0 < s.buffer.len
  consumed : s.consumed + 1 < Word.limit
  events : s.events + 1 < Word.limit
  behind : s.consumed + 1 ≤ s.produced
  last : s.consumed + 1 = total → s.phase = .draining ∧ s.done = false

end State

namespace Agent

/-- **The next step of the agent meets no fault.** -/
def Safe (m : Monitor) : Agent → Prop
  | producer _ .gate => True
  | producer id (.ready n) => Item.valueOf id n < Word.limit
  | producer _ (.holding _) => m.state.failed = false → m.state.TakesIn m.totalItems
  | producer _ (.moved _) => m.slots.filled.value < slotLimit
  | producer _ (.stopping _) => m.slots.free.value < slotLimit
  | producer _ (.finished _) => True
  | consumer .gate => True
  | consumer .ready => True
  | consumer .holding => m.state.failed = false → m.state.GivesOut m.totalItems
  | consumer (.moved _) => m.slots.free.value < slotLimit
  | consumer (.stopping _) => m.slots.filled.value < slotLimit
  | consumer (.finished _) => True
  | watcher _ .gate => True
  | watcher _ .waiting => m.state.failed = false → m.state.events + 1 < Word.limit
  | watcher _ (.finished _) => True
  | breaker (.calling .mark) => True
  | breaker (.calling .free) => m.slots.free.value < slotLimit
  | breaker (.calling .filled) => m.slots.filled.value < slotLimit
  | breaker (.finished _) => True
  | _ => False

/-- The agent has stopped on a fault, or is stopping on one. -/
def isFaulty : Agent → Bool
  | producer _ (.unwinding _) | producer _ (.failing _ _) | producer _ (.faulted _) | producer _ (.crashed _ _) => true
  | consumer (.unwinding _) | consumer (.failing _ _) | consumer (.faulted _) | consumer (.crashed _ _) => true
  | watcher _ (.failing _ _) | watcher _ (.faulted _) | watcher _ (.crashed _ _) => true
  | breaker (.faulted _) => true
  | _ => false

def isBreaker : Agent → Bool
  | breaker _ => true
  | _ => false

/-- A call from outside that has marked the run.  It may have found no room for its places since. -/
def isMarker : Agent → Bool
  | breaker (.calling .free) | breaker (.calling .filled) | breaker (.finished true) | breaker (.faulted _) => true
  | _ => false

/-- A call from outside that has marked the run and found no room for its places. -/
def isLost : Agent → Bool
  | breaker (.faulted _) => true
  | _ => false

end Agent

namespace Slots

variable {s s' : Slots} {side : Side}

theorem post_of_lt (side : Side) (h : (s.get side).value < slotLimit) : ∃ s', s.post side = .ok s' := by
  unfold post Semaphore.post
  rw [if_pos h]
  exact ⟨_, rfl⟩

theorem post_of_not_lt (side : Side) (h : ¬ (s.get side).value < slotLimit) : s.post side = .error .slotOverflow := by
  unfold post Semaphore.post
  rw [if_neg h]
  rfl

theorem post_values (h : s.post side = .ok s') :
    (s'.get side).value = (s.get side).value + 1 ∧ s'.get side.other = s.get side.other := by
  unfold post at h
  cases hp : (s.get side).post with
  | error f => rw [hp] at h; cases h
  | ok t =>
    rw [hp] at h
    cases h
    rw [Sides.get_set_self, Sides.get_set_other]
    exact ⟨(Semaphore.post_eq_ok.1 hp).2, rfl⟩

theorem take?_values (h : s.take? side = some s') :
    (s.get side).value = (s'.get side).value + 1 ∧ s'.get side.other = s.get side.other := by
  unfold take? at h
  obtain ⟨t, ht, rfl⟩ := Option.map_eq_some_iff.1 h
  rw [Sides.get_set_self, Sides.get_set_other]
  exact ⟨Semaphore.take?_eq_some.1 ht, rfl⟩

theorem take?_isSome (h : 0 < (s.get side).value) : (s.take? side).isSome = true := by
  unfold take? Semaphore.take?
  rw [if_neg (by omega)]
  rfl

end Slots

theorem Monitor.take?_eq_some {m m' : Monitor} {side : Side} (h : m.take? side = some m') :
    m.slots.take? side = some m'.slots ∧ m'.state = m.state ∧ m'.config = m.config := by
  unfold Monitor.take? at h
  obtain ⟨s, hs, rfl⟩ := Option.map_eq_some_iff.1 h
  exact ⟨hs, rfl, rfl⟩

/-! ## A safe agent's step is a turn -/

section
variable {m m' : Monitor}

def TurnsTo (m : Monitor) (a a' : Agent) (m' : Monitor) : Prop :=
  m'.config = m.config ∧ ∃ e, Turn m a e a' ∧ e.Leads m m'

theorem TurnsTo.of_turn {a a' : Agent} {e : Effect} (ht : Turn m a e a') (hc : m'.config = m.config)
    (he : e.Leads m m') : TurnsTo m a a' m' := ⟨hc, e, ht, he⟩

theorem producer_turns {id : Nat} {place place' : ProducerPlace} (hsafe : (Agent.producer id place).Safe m)
    (h : place.step id m = some (place', m')) : TurnsTo m (.producer id place) (.producer id place') m' := by
  cases place with
  | gate =>
    simp only [ProducerPlace.step] at h
    split at h
    · rename_i hstart
      split at h
      · rename_i haway
        cases h
        exact .of_turn (.producerLeaves id hstart haway) rfl ⟨rfl, rfl⟩
      · rename_i haway
        cases h
        exact .of_turn (.producerEnters id hstart (by simpa using haway)) rfl ⟨rfl, rfl⟩
    · cases h
  | ready n =>
    simp only [ProducerPlace.step] at h
    rw [Item.make_eq_ok.2 ⟨hsafe, rfl⟩] at h
    obtain ⟨m₁, hm₁, heq⟩ := Option.map_eq_some_iff.1 h
    cases heq
    obtain ⟨hslots, hstate, hconfig⟩ := Monitor.take?_eq_some hm₁
    exact .of_turn (.producerTakes id n) hconfig ⟨hstate, hslots⟩
  | holding n =>
    simp only [ProducerPlace.step] at h
    split at h
    · rename_i hfailed
      cases h
      exact .of_turn (.producerStops id n hfailed) rfl ⟨rfl, rfl⟩
    · rename_i hfailed
      have hf : m.state.failed = false := by simpa using hfailed
      have hin := hsafe hf
      obtain ⟨b, hb, -, -⟩ := Buffer.insert_ok hin.ring (by rw [← hin.ring.len_eq]; exact hin.room) (Item.of id n)
      obtain ⟨log, hdeed⟩ := Act.handIn_ok hb hin.produced hin.events hin.last
      rw [hdeed] at h
      cases h
      exact .of_turn (.producerHandsIn id n) rfl ⟨rfl, hf, b, hb, rfl⟩
  | moved n =>
    obtain ⟨s, hs⟩ := Slots.post_of_lt .filled hsafe
    simp only [ProducerPlace.step, hs] at h
    cases h
    exact .of_turn (.producerPasses id n) rfl ⟨rfl, hs⟩
  | stopping n =>
    obtain ⟨s, hs⟩ := Slots.post_of_lt .free hsafe
    simp only [ProducerPlace.step, hs] at h
    cases h
    exact .of_turn (.producerGivesBack id n) rfl ⟨rfl, hs⟩
  | finished n => cases h
  | unwinding | failing | faulted | crashed => exact hsafe.elim

theorem consumer_turns {place place' : ConsumerPlace} (hsafe : (Agent.consumer place).Safe m)
    (h : place.step m = some (place', m')) : TurnsTo m (.consumer place) (.consumer place') m' := by
  cases place with
  | gate =>
    simp only [ConsumerPlace.step] at h
    split at h
    · rename_i hstart
      split at h
      · rename_i haway
        cases h
        exact .of_turn (.consumerLeaves hstart haway) rfl ⟨rfl, rfl⟩
      · rename_i haway
        cases h
        exact .of_turn (.consumerEnters hstart (by simpa using haway)) rfl ⟨rfl, rfl⟩
    · cases h
  | ready =>
    obtain ⟨m₁, hm₁, heq⟩ := Option.map_eq_some_iff.1 h
    cases heq
    obtain ⟨hslots, hstate, hconfig⟩ := Monitor.take?_eq_some hm₁
    exact .of_turn .consumerTakes hconfig ⟨hstate, hslots⟩
  | holding =>
    simp only [ConsumerPlace.step] at h
    split at h
    · rename_i hfailed
      cases h
      exact .of_turn (.consumerStops hfailed) rfl ⟨rfl, rfl⟩
    · rename_i hfailed
      have hf : m.state.failed = false := by simpa using hfailed
      have hout := hsafe hf
      -- a ring that has an item shows a queue with a first element
      obtain ⟨item, q, hq⟩ : ∃ item q, m.state.buffer.toList = item :: q := by
        cases hl : m.state.buffer.toList with
        | nil =>
          have := hout.ring.len_eq
          have := hout.item
          rw [hl, List.length_nil] at *
          omega
        | cons item q => exact ⟨item, q, rfl⟩
      obtain ⟨b, hb, -, -⟩ := Buffer.remove_ok (hq ▸ hout.ring)
      obtain ⟨log, hdeed⟩ := Act.takeOut_ok hb hout.consumed hout.behind hout.events hout.last
      rw [hdeed] at h
      cases h
      exact .of_turn .consumerTakesOut rfl ⟨rfl, hf, item, b, hb, rfl⟩
  | moved last =>
    obtain ⟨s, hs⟩ := Slots.post_of_lt .free hsafe
    simp only [ConsumerPlace.step, hs] at h
    cases h
    exact .of_turn (.consumerPasses last) rfl ⟨rfl, hs⟩
  | stopping n =>
    obtain ⟨s, hs⟩ := Slots.post_of_lt .filled hsafe
    simp only [ConsumerPlace.step, hs] at h
    cases h
    exact .of_turn (.consumerGivesBack n) rfl ⟨rfl, hs⟩
  | finished n => cases h
  | unwinding | failing | faulted | crashed => exact hsafe.elim

theorem watcher_turns {id : Nat} {place place' : WatcherPlace} (hsafe : (Agent.watcher id place).Safe m)
    (h : place.step id m = some (place', m')) : TurnsTo m (.watcher id place) (.watcher id place') m' := by
  cases place with
  | gate =>
    simp only [WatcherPlace.step] at h
    split at h
    · rename_i hstart
      split at h
      · rename_i haway
        cases h
        exact .of_turn (.watcherLeaves id hstart haway) rfl ⟨rfl, rfl⟩
      · rename_i haway
        cases h
        exact .of_turn (.watcherEnters id hstart (by simpa using haway)) rfl ⟨rfl, rfl⟩
    · cases h
  | waiting =>
    simp only [WatcherPlace.step] at h
    split at h
    · rename_i hdone
      split at h
      · rename_i hfailed
        cases h
        exact .of_turn (.watcherStops id hfailed) rfl ⟨rfl, rfl⟩
      · rename_i hfailed
        have hf : m.state.failed = false := by simpa using hfailed
        obtain ⟨log, hdeed⟩ := Act.announce_ok (hsafe hf) id
        rw [hdeed] at h
        cases h
        exact .of_turn (.watcherAnnounces id) rfl ⟨rfl, hf, hdone, rfl⟩
    · cases h
  | finished n => cases h
  | failing | faulted | crashed => exact hsafe.elim

theorem breaker_turns {place place' : BreakerPlace} (hsafe : (Agent.breaker place).Safe m)
    (h : place.step m = some (place', m')) : TurnsTo m (.breaker place) (.breaker place') m' := by
  cases place with
  | calling stage =>
    cases stage with
    | mark =>
      cases hf : m.state.failed with
      | false =>
        obtain ⟨log, hdeed⟩ := Act.markFailed_first hf
        rw [BreakerPlace.step, FailStage.step, Act.bind_ok hdeed] at h
        cases h
        exact .of_turn .breakerMarks rfl ⟨rfl, hf, rfl⟩
      | true =>
        rw [BreakerPlace.step, FailStage.step, Act.bind_ok (Act.markFailed_again hf)] at h
        cases h
        exact .of_turn (.breakerLate hf) rfl ⟨rfl, rfl⟩
    | free =>
      obtain ⟨s, hs⟩ := Slots.post_of_lt .free hsafe
      rw [BreakerPlace.step, FailStage.step, Act.bind_ok (Act.post_ok hs)] at h
      cases h
      exact .of_turn .breakerFrees rfl ⟨rfl, hs⟩
    | filled =>
      obtain ⟨s, hs⟩ := Slots.post_of_lt .filled hsafe
      rw [BreakerPlace.step, FailStage.step, Act.bind_ok (Act.post_ok hs)] at h
      cases h
      exact .of_turn .breakerFills rfl ⟨rfl, hs⟩
  | finished first => cases h
  | faulted f => exact hsafe.elim

/-- **The next step of a safe agent is a turn.** -/
theorem step_of_safe {a a' : Agent} (hsafe : a.Safe m) (h : a.step m = some (a', m')) : TurnsTo m a a' m' := by
  cases a with
  | producer id place =>
    obtain ⟨place', hp, rfl⟩ := Agent.exists_place (f := Agent.producer id) h
    exact producer_turns hsafe hp
  | consumer place =>
    obtain ⟨place', hp, rfl⟩ := Agent.exists_place (f := Agent.consumer) h
    exact consumer_turns hsafe hp
  | watcher id place =>
    obtain ⟨place', hp, rfl⟩ := Agent.exists_place (f := Agent.watcher id) h
    exact watcher_turns hsafe hp
  | breaker place =>
    obtain ⟨place', hp, rfl⟩ := Agent.exists_place (f := Agent.breaker) h
    exact breaker_turns hsafe hp
  | starter | finisher => exact hsafe.elim

/-! ## In a failed run -/

/-- A step that ends with the agent stopped, or stopping, on a fault, and leaves the guarded state alone. -/
structure FaultsTo (m : Monitor) (a a' : Agent) (m' : Monitor) : Prop where
  faulty : a'.isFaulty = true
  name : a'.name? = a.name?
  breaker : a'.isBreaker = a.isBreaker
  marker : a'.isMarker = a.isMarker
  state : m'.state = m.state
  config : m'.config = m.config

theorem stepAfter_of_failed {π : Type} (hf : m.state.failed = true) (stage : FailStage) (failing : FailStage → π)
    (faulted : π) (crashed : Fault → π) (P : π → Prop) (hfailing : ∀ st, P (failing st)) (hfaulted : P faulted)
    (hcrashed : ∀ f, P (crashed f)) :
    P (stage.stepAfter failing faulted crashed m).1 ∧
      (stage.stepAfter failing faulted crashed m).2.state = m.state ∧
      (stage.stepAfter failing faulted crashed m).2.config = m.config := by
  cases stage with
  | mark =>
    rw [FailStage.stepAfter, FailStage.step, Act.bind_ok (Act.markFailed_again hf)]
    exact ⟨hfaulted, rfl, rfl⟩
  | free =>
    rw [FailStage.stepAfter, FailStage.step]
    cases hp : m.slots.post .free with
    | ok s => rw [Act.bind_ok (Act.post_ok hp)]; exact ⟨hfailing _, rfl, rfl⟩
    | error f => rw [Act.bind_error (Act.post_error hp)]; exact ⟨hcrashed _, rfl, rfl⟩
  | filled =>
    rw [FailStage.stepAfter, FailStage.step]
    cases hp : m.slots.post .filled with
    | ok s => rw [Act.bind_ok (Act.post_ok hp)]; exact ⟨hfaulted, rfl, rfl⟩
    | error f => rw [Act.bind_error (Act.post_error hp)]; exact ⟨hcrashed _, rfl, rfl⟩

theorem producer_faults {id : Nat} {place place' : ProducerPlace} (hf : m.state.failed = true)
    (hnot : ¬ (Agent.producer id place).Safe m) (h : place.step id m = some (place', m')) :
    FaultsTo m (.producer id place) (.producer id place') m' := by
  cases place with
  | gate | finished => exact absurd trivial hnot
  | ready n =>
    simp only [ProducerPlace.step] at h
    cases hi : Item.make id n with
    | ok item => exact absurd (Item.make_eq_ok.1 hi).1 hnot
    | error f =>
      rw [hi] at h
      cases h
      exact ⟨rfl, rfl, rfl, rfl, rfl, rfl⟩
  | holding n => exact absurd (fun hf' => by rw [hf] at hf'; cases hf') hnot
  | moved n =>
    simp only [ProducerPlace.step, Slots.post_of_not_lt .filled hnot] at h
    cases h
    exact ⟨rfl, rfl, rfl, rfl, rfl, rfl⟩
  | stopping n =>
    simp only [ProducerPlace.step, Slots.post_of_not_lt .free hnot] at h
    cases h
    exact ⟨rfl, rfl, rfl, rfl, rfl, rfl⟩
  | unwinding f =>
    simp only [ProducerPlace.step] at h
    split at h <;> cases h <;> exact ⟨rfl, rfl, rfl, rfl, rfl, rfl⟩
  | failing stage f =>
    obtain ⟨hplace, hstate, hconfig⟩ := stepAfter_of_failed hf stage (ProducerPlace.failing · f) (.faulted f)
      (.crashed f) (fun p => (Agent.producer id p).isFaulty = true) (fun _ => rfl) rfl (fun _ => rfl)
    rw [ProducerPlace.step, Option.some.injEq] at h
    rw [h] at hplace hstate hconfig
    exact ⟨hplace, rfl, rfl, rfl, hstate, hconfig⟩
  | faulted | crashed => cases h

theorem consumer_faults {place place' : ConsumerPlace} (hf : m.state.failed = true)
    (hnot : ¬ (Agent.consumer place).Safe m) (h : place.step m = some (place', m')) :
    FaultsTo m (.consumer place) (.consumer place') m' := by
  cases place with
  | gate | ready | finished => exact absurd trivial hnot
  | holding => exact absurd (fun hf' => by rw [hf] at hf'; cases hf') hnot
  | moved last =>
    simp only [ConsumerPlace.step, Slots.post_of_not_lt .free hnot] at h
    cases h
    exact ⟨rfl, rfl, rfl, rfl, rfl, rfl⟩
  | stopping n =>
    simp only [ConsumerPlace.step, Slots.post_of_not_lt .filled hnot] at h
    cases h
    exact ⟨rfl, rfl, rfl, rfl, rfl, rfl⟩
  | unwinding f =>
    simp only [ConsumerPlace.step] at h
    split at h <;> cases h <;> exact ⟨rfl, rfl, rfl, rfl, rfl, rfl⟩
  | failing stage f =>
    obtain ⟨hplace, hstate, hconfig⟩ := stepAfter_of_failed hf stage (ConsumerPlace.failing · f) (.faulted f)
      (.crashed f) (fun p => (Agent.consumer p).isFaulty = true) (fun _ => rfl) rfl (fun _ => rfl)
    rw [ConsumerPlace.step, Option.some.injEq] at h
    rw [h] at hplace hstate hconfig
    exact ⟨hplace, rfl, rfl, rfl, hstate, hconfig⟩
  | faulted | crashed => cases h

theorem watcher_faults {id : Nat} {place place' : WatcherPlace} (hf : m.state.failed = true)
    (hnot : ¬ (Agent.watcher id place).Safe m) (h : place.step id m = some (place', m')) :
    FaultsTo m (.watcher id place) (.watcher id place') m' := by
  cases place with
  | gate | finished => exact absurd trivial hnot
  | waiting => exact absurd (fun hf' => by rw [hf] at hf'; cases hf') hnot
  | failing stage f =>
    obtain ⟨hplace, hstate, hconfig⟩ := stepAfter_of_failed hf stage (WatcherPlace.failing · f) (.faulted f)
      (.crashed f) (fun p => (Agent.watcher id p).isFaulty = true) (fun _ => rfl) rfl (fun _ => rfl)
    rw [WatcherPlace.step, Option.some.injEq] at h
    rw [h] at hplace hstate hconfig
    exact ⟨hplace, rfl, rfl, rfl, hstate, hconfig⟩
  | faulted | crashed => cases h

theorem breaker_faults {place place' : BreakerPlace} (hnot : ¬ (Agent.breaker place).Safe m)
    (h : place.step m = some (place', m')) : FaultsTo m (.breaker place) (.breaker place') m' := by
  cases place with
  | calling stage =>
    cases stage with
    | mark => exact absurd trivial hnot
    | free =>
      rw [BreakerPlace.step, FailStage.step,
        Act.bind_error (Act.post_error (Slots.post_of_not_lt .free hnot))] at h
      cases h
      exact ⟨rfl, rfl, rfl, rfl, rfl, rfl⟩
    | filled =>
      rw [BreakerPlace.step, FailStage.step,
        Act.bind_error (Act.post_error (Slots.post_of_not_lt .filled hnot))] at h
      cases h
      exact ⟨rfl, rfl, rfl, rfl, rfl, rfl⟩
  | finished first => exact absurd trivial hnot
  | faulted f => cases h

def Agent.isMember : Agent → Bool
  | starter _ | finisher _ => false
  | _ => true

/-- **In a failed run a step is a turn, or ends on a fault and leaves the guarded state alone.** -/
theorem step_of_failed {a a' : Agent} (hf : m.state.failed = true) (hmember : a.isMember = true)
    (h : a.step m = some (a', m')) : TurnsTo m a a' m' ∨ FaultsTo m a a' m' := by
  by_cases hsafe : a.Safe m
  · exact .inl (step_of_safe hsafe h)
  right
  cases a with
  | producer id place =>
    obtain ⟨place', hp, rfl⟩ := Agent.exists_place (f := Agent.producer id) h
    exact producer_faults hf hsafe hp
  | consumer place =>
    obtain ⟨place', hp, rfl⟩ := Agent.exists_place (f := Agent.consumer) h
    exact consumer_faults hf hsafe hp
  | watcher id place =>
    obtain ⟨place', hp, rfl⟩ := Agent.exists_place (f := Agent.watcher id) h
    exact watcher_faults hf hsafe hp
  | breaker place =>
    obtain ⟨place', hp, rfl⟩ := Agent.exists_place (f := Agent.breaker) h
    exact breaker_faults hsafe hp
  | starter | finisher => cases hmember

end

end Handover
