import Handover.Agent.Step
/-!
# Deed — what the acts of a monitor do when nothing goes wrong

Each act of an agent under the mutex has one lemma: where its checks pass, it ends well with exactly the state named
here (`State.handedIn`, `State.takenOut`, `State.announced`, `State.marked`), and it touches the counters of places
not at all.  Only the notes are left open.
-/
namespace Handover

namespace State

def recorded (s : State) (kind : Kind) (item : Option Item) : State :=
  { s with
    events := s.events + 1
    trail := if s.keepJournal then s.eventNow kind item :: s.trail else s.trail }

/-- An item of `total` was handed in, and the ring is `b` now. -/
def handedIn (s : State) (total : Nat) (item : Item) (b : Buffer Item) : State :=
  { s with
    buffer := b
    produced := s.produced + 1
    phase := if s.produced + 1 = total then .draining else s.phase }.recorded .produced (some item)

def completed (s : State) : State := { s with phase := .complete, done := true }

/-- An item of `total` was taken out, and the ring is `b` now; with the last one the end was announced. -/
def takenOut (s : State) (total : Nat) (item : Item) (b : Buffer Item) : State :=
  { s with
    buffer := b
    consumed := s.consumed + 1
    phase := if s.consumed + 1 = total then .complete else s.phase
    done := if s.consumed + 1 = total then true else s.done }.recorded .consumed (some item)

def announced (s : State) : State := s.recorded .completed none

def marked (s : State) : State := { s with failed := true, done := true }

end State

/-- An agent's step is a step of its place. -/
theorem Agent.exists_place {π : Type} {f : π → Agent} {step? : Option (π × Monitor)} {a' : Agent} {m' : Monitor}
    (h : step?.map (fun (place, m) => (f place, m)) = some (a', m')) :
    ∃ place, step? = some (place, m') ∧ a' = f place := by
  obtain ⟨⟨place, m⟩, hstep, heq⟩ := Option.map_eq_some_iff.1 h
  cases heq
  exact ⟨place, hstep, rfl⟩

/-- Whoever waits for the gate takes one step, which tells it the verdict and changes nothing. -/
theorem Agent.starter_step {verdict : Option Bool} {a' : Agent} {m m' : Monitor}
    (h : (Agent.starter verdict).step m = some (a', m')) :
    verdict = none ∧ m' = m ∧ ∃ proceed, a' = .starter (some proceed) := by
  cases verdict with
  | some => cases h
  | none =>
    simp only [Agent.step] at h
    split at h <;> cases h
    exact ⟨rfl, rfl, _, rfl⟩

/-- Whoever waits for the end takes one step, which tells it how the run ended and changes nothing. -/
theorem Agent.finisher_step {found : Option (Bool × Bool)} {a' : Agent} {m m' : Monitor}
    (h : (Agent.finisher found).step m = some (a', m')) :
    found = none ∧ m' = m ∧ ∃ flags, a' = .finisher (some flags) := by
  cases found with
  | some => cases h
  | none =>
    simp only [Agent.step] at h
    split at h <;> cases h
    exact ⟨rfl, rfl, _, rfl⟩

namespace Act

variable {α β : Type} {m m' : Monitor}

theorem bind_ok {x : Act α} {f : α → Act β} {a : α} (h : x m = .ok a m') : (x >>= f) m = f a m' := by
  change EStateM.bind x f m = _
  unfold EStateM.bind
  rw [h]

theorem bind_error {x : Act α} {f : α → Act β} {e : Fault} (h : x m = .error e m') : (x >>= f) m = .error e m' := by
  change EStateM.bind x f m = _
  unfold EStateM.bind
  rw [h]

theorem state_ok : Act.state m = .ok m.state m := rfl

theorem get_ok : (get : Act Monitor) m = .ok m m := rfl

theorem setState_ok (s : State) : setState s m = .ok () { m with state := s } := rfl

theorem say_ok (n : Note) : Act.say n m = .ok () (m.say n) := rfl

theorem lift_ok {x : Except Fault α} {a : α} (h : x = .ok a) : lift x m = .ok a m := by
  subst h
  rfl

theorem insert_ok {item : Item} {b : Buffer Item} (h : m.state.buffer.insert item = .ok b) :
    Act.insert item m = .ok () { m with state := { m.state with buffer := b } } := by
  rw [Act.insert, bind_ok state_ok, bind_ok (lift_ok h), setState_ok]

theorem remove_ok {item : Item} {b : Buffer Item} (h : m.state.buffer.remove = .ok (item, b)) :
    Act.remove m = .ok item { m with state := { m.state with buffer := b } } := by
  rw [Act.remove, bind_ok state_ok, bind_ok (lift_ok h)]
  rfl

theorem advance_ok {target : Phase} (h : m.state.phase.next? = some target) :
    Act.advance target m =
      .ok () { m.say (.phaseChanged m.state.phase target) with state := { m.state with phase := target } } := by
  rw [Act.advance, bind_ok state_ok, bind_ok (lift_ok (Phase.advance_eq_ok.2 ⟨h, rfl⟩)), bind_ok (say_ok _),
    setState_ok]

theorem countProduced_ok {total : Nat} (hfits : m.state.produced + 1 < Word.limit)
    (hlast : m.state.produced + 1 = total → m.state.phase = .running) :
    ∃ log, Act.countProduced total m = .ok ()
      { m with
        state := { m.state with
          produced := m.state.produced + 1
          phase := if m.state.produced + 1 = total then .draining else m.state.phase }
        log := log } := by
  rw [Act.countProduced, bind_ok state_ok, bind_ok (lift_ok (Word.add_eq_ok.2 ⟨hfits, rfl⟩)),
    bind_ok (setState_ok _)]
  by_cases h : m.state.produced + 1 = total
  · rw [if_pos h, if_pos h, advance_ok (by simp only [hlast h]; rfl)]
    exact ⟨_, rfl⟩
  · rw [if_neg h, if_neg h]
    exact ⟨m.log, rfl⟩

theorem countConsumed_ok (hfits : m.state.consumed + 1 < Word.limit)
    (hle : m.state.consumed + 1 ≤ m.state.produced) :
    Act.countConsumed m = .ok (m.state.consumed + 1)
      { m with state := { m.state with consumed := m.state.consumed + 1 } } := by
  rw [Act.countConsumed, bind_ok state_ok, bind_ok (lift_ok (Word.add_eq_ok.2 ⟨hfits, rfl⟩)),
    bind_ok (setState_ok _), if_pos hle]
  rfl

theorem record_ok (hfits : m.state.events + 1 < Word.limit) (kind : Kind) (item : Option Item) :
    Act.record kind item m =
      .ok (m.state.eventNow kind item) { m with state := m.state.recorded kind item } := by
  rw [Act.record, bind_ok state_ok, bind_ok (lift_ok (Word.add_eq_ok.2 ⟨hfits, rfl⟩)), bind_ok (setState_ok _)]
  rfl

theorem complete_ok (hall : m.state.consumed = m.totalItems) (hphase : m.state.phase = .draining)
    (hdone : m.state.done = false) :
    ∃ log, Act.complete m = .ok () { m with state := m.state.completed, log := log } := by
  have hnext : m.state.phase.next? = some .complete := by rw [hphase]; rfl
  rw [Act.complete, bind_ok get_ok, bind_ok state_ok]
  simp only [hall, if_true]
  rw [bind_ok (advance_ok hnext), bind_ok state_ok]
  simp only [hdone, Bool.false_eq_true, if_false]
  exact ⟨_, rfl⟩

/-- **An item is handed in** where the ring takes it, the counts fit, and the last item finds the run producing. -/
theorem handIn_ok {item : Item} {b : Buffer Item} (hb : m.state.buffer.insert item = .ok b)
    (hproduced : m.state.produced + 1 < Word.limit) (hevents : m.state.events + 1 < Word.limit)
    (hlast : m.state.produced + 1 = m.totalItems → m.state.phase = .running) :
    ∃ log, Act.handIn item m =
      .ok () { m with state := m.state.handedIn m.totalItems item b, log := log } := by
  let m₁ : Monitor := { m with state := { m.state with buffer := b } }
  obtain ⟨log, hcount⟩ := countProduced_ok (m := m₁) hproduced hlast
  let m₂ : Monitor := { m₁ with
    state := { m₁.state with
      produced := m.state.produced + 1
      phase := if m.state.produced + 1 = m.totalItems then .draining else m.state.phase }
    log := log }
  have hcount' : Act.countProduced m₁.totalItems m₁ = .ok () m₂ := hcount
  rw [Act.handIn, bind_ok (insert_ok hb), bind_ok get_ok, bind_ok hcount', bind_ok (record_ok (m := m₂) hevents _ _),
    say_ok]
  exact ⟨_, rfl⟩

/-- **An item is taken out** where the ring gives it, it was produced before, the counts fit, and the last item finds
the run draining and the latch closed. -/
theorem takeOut_ok {item : Item} {b : Buffer Item} (hb : m.state.buffer.remove = .ok (item, b))
    (hconsumed : m.state.consumed + 1 < Word.limit) (hle : m.state.consumed + 1 ≤ m.state.produced)
    (hevents : m.state.events + 1 < Word.limit)
    (hlast : m.state.consumed + 1 = m.totalItems → m.state.phase = .draining ∧ m.state.done = false) :
    ∃ log, Act.takeOut m = .ok (if m.state.consumed + 1 = m.totalItems then some (m.state.consumed + 1) else none)
      { m with state := m.state.takenOut m.totalItems item b, log := log } := by
  let m₁ : Monitor := { m with state := { m.state with buffer := b } }
  let m₂ : Monitor := { m with state := { m.state with buffer := b, consumed := m.state.consumed + 1 } }
  rw [Act.takeOut, bind_ok (remove_ok hb), bind_ok (countConsumed_ok (m := m₁) hconsumed hle),
    bind_ok (record_ok (m := m₂) hevents _ _), bind_ok (say_ok _), bind_ok get_ok]
  let m₃ : Monitor := { m₂ with state := m₂.state.recorded .consumed (some item) }
  by_cases h : m.state.consumed + 1 = m.totalItems
  · obtain ⟨log, hcomplete⟩ := complete_ok (m := m₃.say (.moved (m₂.state.eventNow .consumed (some item))))
      h (hlast h).1 (hlast h).2
    rw [if_pos (show m₁.state.consumed + 1 = (m₃.say _).totalItems from h), bind_ok hcomplete]
    simp only [State.takenOut, if_pos h]
    exact ⟨log, rfl⟩
  · rw [if_neg (show ¬ m₁.state.consumed + 1 = (m₃.say _).totalItems from h)]
    simp only [State.takenOut, if_neg h]
    exact ⟨_, rfl⟩

/-- **A watcher reports the end**: what was consumed so far, and the number of its event. -/
theorem announce_ok (hevents : m.state.events + 1 < Word.limit) (id : Nat) :
    ∃ log, Act.announce id m = .ok ⟨id, m.state.consumed, m.state.events⟩
      { m with state := m.state.announced, log := log } := by
  rw [Act.announce, bind_ok (record_ok hevents _ _), bind_ok (say_ok _), bind_ok state_ok]
  exact ⟨_, rfl⟩

theorem markFailed_first (h : m.state.failed = false) :
    ∃ log, Act.markFailed m = .ok true { m with state := m.state.marked, log := log } := by
  rw [Act.markFailed, bind_ok state_ok]
  simp only [h, Bool.false_eq_true, if_false]
  exact ⟨_, rfl⟩

theorem markFailed_again (h : m.state.failed = true) : Act.markFailed m = .ok false m := by
  rw [Act.markFailed, bind_ok state_ok]
  simp only [h, if_true]
  rfl

theorem post_ok {side : Side} {s : Slots} (h : m.slots.post side = .ok s) :
    Act.post side m = .ok () { m with slots := s } := by
  rw [Act.post, bind_ok get_ok, bind_ok (lift_ok h)]
  rfl

theorem post_error {side : Side} {f : Fault} (h : m.slots.post side = .error f) :
    Act.post side m = .error f m := by
  have hlift : lift (m.slots.post side) m = .error f m := by rw [h]; rfl
  rw [Act.post, bind_ok get_ok, bind_error hlift]

end Act
end Handover
