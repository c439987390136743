import Handover.Proofs.Progress
import Handover.Proofs.Stakes
/-!
# Release — a failure releases everybody

A call that fails a run adds one place to each side, however many agents wait there.  That is enough.  Whoever takes the
place finds the run failed and gives it back, so each side of a failed run keeps at least one place that is counted or
claimed (`System.Staked`); and an agent that claims a place is not one that waits.  So if nobody could move, each
counter would show a place and nobody would wait for one.
-/
namespace Handover

theorem Monitor.value_of_take?_none {m : Monitor} (side : Side) (h : m.take? side = none) :
    (m.slots.get side).value = 0 := by
  have hsome := m.take?_isSome side
  rw [h] at hsome
  simpa using hsome.symm

namespace Agent

variable {m m' : Monitor} {a a' : Agent}

/-! ## Who waits in a failed run -/

theorem Waits.claim_eq (h : Waits m a) (side : Side) : a.claim side = 0 := by
  cases h <;> cases side <;> rfl

theorem claim_of_back (h : a.outcome?.isNone = false) (side : Side) : a.claim side = 0 := by
  cases a with
  | producer id place =>
    cases place with
    | finished | faulted => cases side <;> rfl
    | _ => cases h
  | consumer place =>
    cases place with
    | finished | faulted => cases side <;> rfl
    | _ => cases h
  | watcher id place =>
    cases place with
    | finished | faulted => cases side <;> rfl
    | _ => cases h
  | starter | finisher => cases side <;> rfl
  | breaker place =>
    cases place with
    | finished | faulted => cases side <;> rfl
    | calling => cases h

/-- Behind the open gate and after the end, whoever has no next step is back or waits for a place, faulty or not. -/
theorem waits_of_step_none (hopen : m.state.start = true) (hdone : m.state.done = true) (hupright : a.isCrashed = false)
    (hstep : a.step m = none) (hout : a.outcome?.isNone = true) : Waits m a := by
  cases a with
  | producer id place =>
    have hplace : place.step id m = none := Option.map_eq_none_iff.1 hstep
    cases place with
    | gate =>
      simp only [ProducerPlace.step, hopen, if_true] at hplace
      split at hplace <;> cases hplace
    | ready n =>
      simp only [ProducerPlace.step] at hplace
      split at hplace
      · cases hplace
      · exact .room id n (Monitor.value_of_take?_none .free (Option.map_eq_none_iff.1 hplace))
    | holding n =>
      simp only [ProducerPlace.step] at hplace
      split at hplace
      · cases hplace
      · split at hplace <;> cases hplace
    | moved | stopping | unwinding =>
      simp only [ProducerPlace.step] at hplace
      split at hplace <;> cases hplace
    | failing => cases hplace
    | finished | faulted => cases hout
    | crashed => cases hupright
  | consumer place =>
    have hplace : place.step m = none := Option.map_eq_none_iff.1 hstep
    cases place with
    | gate =>
      simp only [ConsumerPlace.step, hopen, if_true] at hplace
      split at hplace <;> cases hplace
    | ready => exact .item (Monitor.value_of_take?_none .filled (Option.map_eq_none_iff.1 hplace))
    | holding =>
      simp only [ConsumerPlace.step] at hplace
      split at hplace
      · cases hplace
      · split at hplace <;> cases hplace
    | moved | stopping | unwinding =>
      simp only [ConsumerPlace.step] at hplace
      split at hplace <;> cases hplace
    | failing => cases hplace
    | finished | faulted => cases hout
    | crashed => cases hupright
  | watcher id place =>
    have hplace : place.step id m = none := Option.map_eq_none_iff.1 hstep
    cases place with
    | gate =>
      simp only [WatcherPlace.step, hopen, if_true] at hplace
      split at hplace <;> cases hplace
    | waiting =>
      simp only [WatcherPlace.step, hdone, if_true] at hplace
      split at hplace
      · cases hplace
      · split at hplace <;> cases hplace
    | failing => cases hplace
    | finished | faulted => cases hout
    | crashed => cases hupright
  | starter verdict =>
    cases verdict with
    | none => rw [Agent.step, hopen] at hstep; cases hstep
    | some => cases hout
  | finisher found =>
    cases found with
    | none => rw [Agent.step, hdone] at hstep; cases hstep
    | some => cases hout
  | breaker place =>
    have hplace : place.step m = none := Option.map_eq_none_iff.1 hstep
    cases place with
    | calling stage =>
      simp only [BreakerPlace.step] at hplace
      split at hplace <;> cases hplace
    | finished | faulted => cases hout

/-! ## Who comes back without a fault -/

/-- The items that a producer is to make have a value. -/
def ValuesFit (quota : Nat) (a : Agent) : Prop :=
  ∀ id, a.name? = some (.producer id) → ∀ n < quota, Item.valueOf id n < Word.limit

theorem safe_of_failed {quota : Nat} (hfailed : m.state.failed = true)
    (hroom : ∀ side, 0 < a.claim side → (m.slots.get side).value < slotLimit) (hmember : a.isMember = true)
    (hquota : a.InQuota quota) (hfit : a.ValuesFit quota) (hwhole : a.isFaulty = false) : a.Safe m := by
  -- in a failed run nobody works on the buffer, so nothing is asked of what is in it
  have hnever {P : Prop} : m.state.failed = false → P := fun hno => absurd (hfailed.symm.trans hno) nofun
  cases a with
  | producer id place =>
    cases place with
    | gate | finished => trivial
    | ready n => exact hfit id rfl n hquota
    | holding => exact hnever
    | moved => exact hroom .filled Nat.zero_lt_one
    | stopping => exact hroom .free Nat.zero_lt_one
    | unwinding | failing | faulted | crashed => cases hwhole
  | consumer place =>
    cases place with
    | gate | ready | finished => trivial
    | holding => exact hnever
    | moved => exact hroom .free Nat.zero_lt_one
    | stopping => exact hroom .filled Nat.zero_lt_one
    | unwinding | failing | faulted | crashed => cases hwhole
  | watcher id place =>
    cases place with
    | gate | finished => trivial
    | waiting => exact hnever
    | failing | faulted | crashed => cases hwhole
  | breaker place =>
    cases place with
    | calling stage =>
      cases stage with
      | mark => trivial
      | free => exact hroom .free Nat.zero_lt_one
      | filled => exact hroom .filled Nat.zero_lt_one
    | finished => trivial
    | faulted => cases hwhole
  | starter | finisher => cases hmember

/-- What a failed run keeps of an agent: whoever has not met a fault meets none, as far as its items have values. -/
structure Remains (quota : Nat) (a a' : Agent) : Prop where
  name : a'.name? = a.name?
  whole : a.ValuesFit quota → a.isFaulty = false → a'.isFaulty = false

theorem Remains.refl {quota : Nat} : a.Remains quota a := ⟨rfl, fun _ => id⟩

theorem Remains.trans {quota : Nat} {a'' : Agent} (h : a.Remains quota a') (h' : a'.Remains quota a'') :
    a.Remains quota a'' := by
  refine ⟨h'.name.trans h.name, fun hfit hwhole => h'.whole (fun id hid => ?_) (h.whole hfit hwhole)⟩
  exact hfit id (h.name.symm.trans hid)

theorem step_remains (hfailed : m.state.failed = true)
    (hroom : ∀ side, 0 < a.claim side → (m.slots.get side).value < slotLimit)
    (hquota : a.InQuota m.config.itemsPerProducer) (h : a.step m = some (a', m')) :
    a.Remains m.config.itemsPerProducer a' := by
  refine ⟨(step_carriesStakes hroom h).follows.name, fun hfit hwhole => ?_⟩
  by_cases hmember : a.isMember = true
  · obtain ⟨-, e, hturn, -⟩ := step_of_safe (safe_of_failed hfailed hroom hmember hquota hfit hwhole) h
    exact hturn.isFaulty_eq
  · cases a with
    | starter verdict =>
      obtain ⟨-, -, proceed, rfl⟩ := starter_step h
      rfl
    | finisher found =>
      obtain ⟨-, -, flags, rfl⟩ := finisher_step h
      rfl
    | _ => exact absurd rfl hmember

/-- The agent has not taken a step. -/
def isNew : Agent → Bool
  | producer _ .gate | consumer .gate | watcher _ .gate => true
  | starter none | finisher none | breaker (.calling .mark) => true
  | _ => false

theorem of_new (quota : Nat) (h : a.isNew = true) :
    (∀ side, a.claim side = 0) ∧ a.isCrashed = false ∧ a.InQuota quota := by
  unfold isNew at h
  split at h <;> cases h <;> exact ⟨fun side => by cases side <;> rfl, rfl, trivial⟩

end Agent

namespace System

variable {c : Config} {s s' : System}

/-- What can happen to a system: somebody opens the gate, once more perhaps, or an agent takes its next step. -/
inductive Move where
  | openGate (proceed : Bool)
  | agent (i : Nat)
  deriving DecidableEq, Repr

def Move.isAgent : Move → Bool
  | openGate _ => false
  | agent _ => true

def move (s : System) : Move → Option System
  | .openGate proceed => some (s.act (Act.openGate proceed)).1
  | .agent i => s.step i

def play (s : System) : List Move → Option System
  | [] => some s
  | x :: rest => (s.move x).bind (·.play rest)

theorem play_agents : ∀ (schedule : List Nat) (s : System), s.play (schedule.map .agent) = s.exec schedule
  | [], _ => rfl
  | i :: rest, s => by
    rw [List.map_cons, play, exec]
    exact congrArg (s.step i).bind (funext fun s' => play_agents rest s')

/-- **Each step of an agent uses up some of the budget**, and opening the gate adds nothing to it. -/
theorem play_budget : ∀ (moves : List Move) {s s' : System}, s.play moves = some s' →
    s'.budget + moves.countP Move.isAgent ≤ s.budget
  | [], s, s', h => by
    cases h
    exact Nat.le_refl _
  | x :: rest, s, s', h => by
    obtain ⟨s₁, hmove, hplay⟩ := Option.bind_eq_some_iff.1 h
    have ih := play_budget rest hplay
    cases x with
    | openGate proceed =>
      obtain ⟨log, hact⟩ := s.act_openGate proceed
      cases hmove
      rw [List.countP_cons_of_neg (by simp [Move.isAgent])]
      rw [hact] at ih
      exact ih
    | agent i =>
      have hlt := step_budget_lt hmove
      rw [List.countP_cons_of_pos rfl]
      omega

theorem staked_of_new {m : Monitor} {slots : Slots} {agents : Array Agent} (hnew : Monitor.new c = .ok m)
    (hslots : slots.free.value + slots.filled.value = c.capacity) (hagents : ∀ a ∈ agents.toList, a.isNew = true) :
    Staked c { monitor := { m with slots := slots }, agents := agents } := by
  obtain rfl : m = .fresh c := by
    unfold Monitor.new at hnew
    cases hvalid : c.validate with
    | error e => rw [hvalid] at hnew; cases hnew
    | ok => rw [hvalid] at hnew; cases hnew; rfl
  have hclaim (side : Side) : (agents.toList.map (Agent.claim side)).sum = 0 := by
    refine List.sum_eq_zero fun n hn => ?_
    obtain ⟨a, ha, rfl⟩ := List.mem_map.1 hn
    exact (Agent.of_new 0 (hagents a ha)).1 side
  refine ⟨rfl, ?_, fun _ => Nat.zero_le _, nofun, rfl, fun a ha => (Agent.of_new 0 (hagents a ha)).2.1,
    fun a ha => (Agent.of_new _ (hagents a ha)).2.2⟩
  unfold stake tally
  rw [hclaim, hclaim]
  exact hslots

/-- The gate, its verdict and the notes have no part in the places. -/
theorem Staked.withGate (h : s.Staked c) (aborted start : Bool) (log : List Note) :
    ({ s with monitor := { s.monitor with
        state := { s.monitor.state with aborted := aborted, start := start }, log := log } } : System).Staked c :=
  ⟨h.config, h.total, h.share, h.done, h.standing, h.upright, h.quota⟩

theorem Staked.openGate (h : s.Staked c) (proceed : Bool) : (s.act (Act.openGate proceed)).1.Staked c := by
  obtain ⟨log, hact⟩ := s.act_openGate proceed
  rw [hact]
  exact h.withGate (!proceed) true log

theorem Staked.play (hc : c.capacity < slotLimit) : ∀ (moves : List Move) {s s' : System}, s.Staked c →
    s.play moves = some s' → s'.Staked c
  | [], s, s', h, hplay => by
    cases hplay
    exact h
  | x :: rest, s, s', h, hplay => by
    obtain ⟨s₁, hmove, hrest⟩ := Option.bind_eq_some_iff.1 hplay
    cases x with
    | openGate proceed =>
      cases hmove
      exact Staked.play hc rest (h.openGate proceed) hrest
    | agent i => exact Staked.play hc rest (h.step hc hmove) hrest

/-! ## A failed run behind the open gate -/

/-- **The gate is open and the run has failed**, however it came to that. -/
structure Broken (c : Config) (s : System) : Prop extends s.Staked c where
  opened : s.monitor.state.start = true
  failed : s.monitor.state.failed = true

theorem Broken.openGate (h : s.Broken c) (proceed : Bool) : (s.act (Act.openGate proceed)).1.Broken c := by
  refine ⟨h.toStaked.openGate proceed, ?_, ?_⟩ <;> obtain ⟨log, hact⟩ := s.act_openGate proceed <;> rw [hact]
  exact h.failed

theorem Broken.step {i : Nat} (h : s.Broken c) (hc : c.capacity < slotLimit) (hstep : s.step i = some s') :
    s'.Broken c ∧ ∀ (j : Nat) (a : Agent), s.agents.toList[j]? = some a →
      ∃ a', s'.agents.toList[j]? = some a' ∧ a.Remains c.itemsPerProducer a' := by
  obtain ⟨-, a, a', hr, ha, -⟩ := step_eq_some hstep
  have hroom := h.room hc hr.mem
  have ht := (Agent.step_carriesStakes hroom ha).stakes
  refine ⟨⟨h.toStaked.step hc hstep, ht.start.trans h.opened, (ht.of_failed h.failed).1⟩, fun j x hx => ?_⟩
  by_cases hji : j = i
  · subst hji
    obtain rfl : a = x := Option.some.inj (hr.before.symm.trans hx)
    have hremains := Agent.step_remains h.failed hroom (by rw [h.config]; exact h.quota a hr.mem) ha
    rw [h.config] at hremains
    exact ⟨a', hr.moved, hremains⟩
  · exact ⟨x, (hr.others hji).trans hx, .refl⟩

/-- **A failed run stays one, and its agents stay who they are.** -/
theorem Broken.play (hc : c.capacity < slotLimit) : ∀ (moves : List Move) {s s' : System}, s.Broken c →
    s.play moves = some s' → s'.Broken c ∧ ∀ (j : Nat) (a : Agent), s.agents.toList[j]? = some a →
      ∃ a', s'.agents.toList[j]? = some a' ∧ a.Remains c.itemsPerProducer a'
  | [], s, s', h, hplay => by
    cases hplay
    exact ⟨h, fun j a ha => ⟨a, ha, .refl⟩⟩
  | x :: rest, s, s', h, hplay => by
    obtain ⟨s₁, hmove, hrest⟩ := Option.bind_eq_some_iff.1 hplay
    cases x with
    | openGate proceed =>
      cases hmove
      obtain ⟨hbroken, hremain⟩ := Broken.play hc rest (h.openGate proceed) hrest
      refine ⟨hbroken, fun j a ha => hremain j a ?_⟩
      obtain ⟨log, hact⟩ := s.act_openGate proceed
      rw [hact]
      exact ha
    | agent i =>
      obtain ⟨h₁, hfirst⟩ := h.step hc hmove
      obtain ⟨hbroken, hremain⟩ := Broken.play hc rest h₁ hrest
      refine ⟨hbroken, fun j a ha => ?_⟩
      obtain ⟨a₁, ha₁, hr₁⟩ := hfirst j a ha
      obtain ⟨a', ha', hr'⟩ := hremain j a₁ ha₁
      exact ⟨a', ha', hr₁.trans hr'⟩

/-- **Nobody waits for good.**  If nobody could move, nobody would claim a place, so the place that the failure added to
each side would be counted there, and nobody would wait for one. -/
theorem Broken.back_of_stuck (h : s.Broken c) (hstuck : ∀ i, s.step i = none) (a : Agent) (ha : a ∈ s.agents.toList) :
    a.outcome?.isNone = false := by
  have hdone := h.done h.failed
  have hwaits (x : Agent) (hx : x ∈ s.agents.toList) (hout : x.outcome?.isNone = true) :
      Agent.Waits s.monitor x := by
    obtain ⟨i, hi⟩ := List.mem_iff_getElem?.1 hx
    have hstep := step_isSome_eq h.standing ((Array.getElem?_toList).symm.trans hi)
    rw [hstuck i] at hstep
    have hnone : x.step s.monitor = none := by simpa using hstep
    exact Agent.waits_of_step_none h.opened hdone (h.upright x hx) hnone hout
  have hclaim (side : Side) : s.tally (Agent.claim side) = 0 := by
    refine tally_eq_zero fun x hx => ?_
    cases hout : x.outcome?.isNone with
    | false => exact Agent.claim_of_back hout side
    | true => exact (hwaits x hx hout).claim_eq side
  have hvalue (side : Side) : 0 < (s.monitor.slots.get side).value := by
    have hshare := h.share side
    rw [h.failed, stake, hclaim side] at hshare
    exact hshare
  rw [← Bool.not_eq_true]
  intro hout
  cases hwaits a ha hout with
  | room id n hzero => exact absurd hzero (hvalue .free).ne'
  | item hzero => exact absurd hzero (hvalue .filled).ne'
  | ending id hno =>
    rw [hdone] at hno
    cases hno

/-- **Until all are back somebody can move.** -/
theorem Broken.exists_step (h : s.Broken c) (hleft : s.unfinished ≠ 0) : ∃ i, (s.step i).isSome = true := by
  by_contra hnobody
  refine hleft (count_eq_zero (h.back_of_stuck fun i => ?_))
  rw [← Option.not_isSome_iff_eq_none]
  exact fun hi => hnobody ⟨i, hi⟩

/-- **A failure releases everybody.**  Take any agents that have not taken a step around a new monitor whose counters
have room for one place more than the buffer, and share out its places between the sides in any way.  Let the gate be
opened and the agents take their steps in any order, until the gate is open and the run has failed: by a call from
outside or by an agent that stopped on a fault, and the calls need not be over.  Then the system is not taken down, and
somebody can take a step as long as anybody is not back.  The steps of the agents from there on are bounded, whatever
the order and however often the gate is opened again, and they can be carried to an end; and at every end each agent is
back, without a fault unless it had met one before or has an item to make whose value does not fit. -/
theorem failure_releases_everybody {m : Monitor} {slots : Slots} {agents : Array Agent} {moves : List Move}
    (hnew : Monitor.new c = .ok m) (hcapacity : c.capacity < slotLimit)
    (hslots : slots.free.value + slots.filled.value = c.capacity) (hagents : ∀ a ∈ agents.toList, a.isNew = true)
    (hplay : System.play { monitor := { m with slots := slots }, agents := agents } moves = some s)
    (hopen : s.monitor.state.start = true) (hfailed : s.monitor.state.failed = true) :
    s.halted = false ∧
    (s.unfinished ≠ 0 → ∃ i, (s.step i).isSome = true) ∧
    (∀ more s', s.play more = some s' → more.countP Move.isAgent ≤ s.budget) ∧
    (∃ (schedule : List Nat) (s' : System), s.play (schedule.map .agent) = some s' ∧ ∀ i, s'.step i = none) ∧
    (∀ more s', s.play more = some s' → (∀ i, s'.step i = none) → ∀ (i : Nat) (a : Agent),
      s.agents[i]? = some a → ∃ a', s'.agents[i]? = some a' ∧ a'.outcome?.isSome = true ∧
        a.Remains c.itemsPerProducer a') := by
  have hbroken : s.Broken c := ⟨Staked.play hcapacity moves (staked_of_new hnew hslots hagents) hplay, hopen, hfailed⟩
  refine ⟨hbroken.standing, fun hleft => ?_, fun more s' hmore => ?_, ?_, fun more s' hmore hstuck i a hi => ?_⟩
  · exact hbroken.exists_step hleft
  · have := play_budget more hmore
    omega
  · obtain ⟨taken, hexec, hstuck⟩ := s.settle_stuck
    exact ⟨taken, s.settle, (play_agents taken s).trans hexec, hstuck⟩
  · obtain ⟨hbroken', hremain⟩ := hbroken.play hcapacity more hmore
    obtain ⟨a', ha', hr⟩ := hremain i a (Array.getElem?_toList.trans hi)
    refine ⟨a', Array.getElem?_toList.symm.trans ha', ?_, hr⟩
    have hback := hbroken'.back_of_stuck hstuck a' (List.mem_of_getElem? ha')
    simpa using hback

/-- There is a filled place and no item behind it.  The consumer took the place, found the buffer empty, gave the place
back and has just marked the run as failed, with both of its own places still to add; two producers wait for one free
place.  All come back, and the last producer without a fault. -/
theorem failure_releases_everybody_chain :
    let c : Config := { capacity := 1, producers := 2, itemsPerProducer := 3 }
    let agents : Array Agent := #[.consumer .gate, .watcher 0 .gate, .producer 0 .gate, .producer 1 .gate]
    let slots : Slots := { free := ⟨0⟩, filled := ⟨1⟩ }
    let moves : List Move := .openGate true :: [0, 1, 2, 3, 0, 0, 0, 0].map .agent
    ∃ m s, Monitor.new c = .ok m ∧
      System.play { monitor := { m with slots := slots }, agents := agents } moves = some s ∧
      (s.monitor.state.start, s.monitor.state.failed, s.monitor.slots.free.value, s.unfinished) = (true, true, 0, 4) ∧
      (∃ i, (s.step i).isSome = true) ∧
      ∃ (schedule : List Nat) (s' : System) (a' : Agent), s.play (schedule.map .agent) = some s' ∧
        s'.agents[3]? = some a' ∧ a'.outcome?.isSome = true ∧ a'.isFaulty = false := by
  intro c agents slots moves
  have hrun : (System.play { monitor := { Monitor.fresh c with slots := slots }, agents := agents } moves).map
      (fun s => ((s.monitor.state.start, s.monitor.state.failed, s.monitor.slots.free.value, s.unfinished),
        s.agents[3]?)) = some ((true, true, 0, 4), some (.producer 1 (.ready 0))) := by decide +kernel
  obtain ⟨s, hplay, hseen⟩ := Option.map_eq_some_iff.1 hrun
  rw [Prod.mk.injEq] at hseen
  obtain ⟨hseen, hlast⟩ := hseen
  have hflags := hseen
  rw [Prod.mk.injEq, Prod.mk.injEq, Prod.mk.injEq] at hflags
  obtain ⟨hopen, hfailed, -, hleft⟩ := hflags
  have hnew : Monitor.new c = .ok (.fresh c) := by decide +kernel
  have hagents : ∀ a ∈ agents.toList, a.isNew = true := by decide
  obtain ⟨-, hmoves, -, ⟨schedule, s', hmore, hstuck⟩, hback⟩ :=
    failure_releases_everybody hnew (by decide) (by decide) hagents hplay hopen hfailed
  obtain ⟨a', ha', hout, hremains⟩ := hback _ s' hmore hstuck 3 _ hlast
  refine ⟨_, s, hnew, hplay, hseen, hmoves (by rw [hleft]; decide), schedule, s', a', hmore, ha', hout,
    hremains.whole (fun id hid n hn => ?_) rfl⟩
  cases hid
  change n < 3 at hn
  unfold Item.valueOf Word.limit
  omega

end System
end Handover
