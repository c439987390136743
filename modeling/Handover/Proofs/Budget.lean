import Handover.Proofs.Census
import Handover.Proofs.Deed
import Handover.Proofs.Ring
/-!
# Budget — every schedule comes to an end

Each step of an agent uses up some of the system's budget, whatever the monitor looks like and however the step ends
(`System.step_budget_lt`): an item pays, before it is put in, for the steps that move it in and out.  So no schedule has
more steps than the budget (`System.exec_budget_le`), and going round until nobody moves ends where nobody can
(`System.settle_stuck`).
-/
namespace Handover

/-! ## What acts leave alone -/

/-- **What the work under the mutex leaves alone**: the places that are counted, the gate with its
verdict, and the mark of a failed run. -/
structure Monitor.Undisturbed (m m' : Monitor) : Prop where
  config : m'.config = m.config
  slots : m'.slots = m.slots
  start : m'.state.start = m.state.start
  aborted : m'.state.aborted = m.state.aborted
  failed : m'.state.failed = m.state.failed
  done : m.state.done = true → m'.state.done = true

theorem Monitor.Undisturbed.trans {m₁ m₂ m₃ : Monitor} (h : m₁.Undisturbed m₂) (h' : m₂.Undisturbed m₃) :
    m₁.Undisturbed m₃ :=
  ⟨h'.config.trans h.config, h'.slots.trans h.slots, h'.start.trans h.start, h'.aborted.trans h.aborted,
    h'.failed.trans h.failed, h'.done ∘ h.done⟩

theorem Monitor.Undisturbed.of_buffer {m m' : Monitor} {b : Buffer Item}
    (h : ({ m with state := { m.state with buffer := b } } : Monitor).Undisturbed m') : m.Undisturbed m' :=
  ⟨h.config, h.slots, h.start, h.aborted, h.failed, h.done⟩

/-- The gate is as it was: open or closed, with the same verdict for the same agents. -/
structure Monitor.SameGate (m m' : Monitor) : Prop where
  config : m'.config = m.config
  start : m'.state.start = m.state.start
  aborted : m'.state.aborted = m.state.aborted

theorem Monitor.Undisturbed.sameGate {m m' : Monitor} (h : m.Undisturbed m') : m.SameGate m' :=
  ⟨h.config, h.start, h.aborted⟩

namespace Act

variable {α β : Type} {m m' : Monitor}

/-- The monitor after an act, however the act ended. -/
def after (x : Act α) (m : Monitor) : Monitor :=
  match x m with
  | .ok _ m' => m'
  | .error _ m' => m'

theorem after_ok {x : Act α} {a : α} (h : x m = .ok a m') : after x m = m' := by
  unfold after
  rw [h]

theorem after_error {x : Act α} {f : Fault} (h : x m = .error f m') : after x m = m' := by
  unfold after
  rw [h]

theorem after_bind {x : Act α} {f : α → Act β} {a : α} (h : x m = .ok a m') : after (x >>= f) m = after (f a) m' := by
  unfold after
  rw [bind_ok h]

/-- However it ends, the act only counts: it leaves the buffer alone too. -/
def Counts (x : Act α) (m : Monitor) : Prop :=
  m.Undisturbed (after x m) ∧ (after x m).state.buffer = m.state.buffer

namespace Counts

theorem still {x : Act α} (h : after x m = m) : Counts x m := by
  unfold Counts
  rw [h]
  exact ⟨⟨rfl, rfl, rfl, rfl, rfl, id⟩, rfl⟩

theorem next {x : Act α} {f : α → Act β} {a : α} (h : x m = .ok a m')
    (hx : m.Undisturbed m' ∧ m'.state.buffer = m.state.buffer) (hf : Counts (f a) m') : Counts (x >>= f) m := by
  unfold Counts
  rw [after_bind h]
  exact ⟨hx.1.trans hf.1, hf.2.trans hx.2⟩

theorem bind {x : Act α} {f : α → Act β} (hx : Counts x m) (hf : ∀ a m', Counts (f a) m') : Counts (x >>= f) m := by
  cases h : x m with
  | ok a m' =>
    unfold Counts at hx
    rw [after_ok h] at hx
    exact .next h hx (hf a m')
  | error f m' =>
    unfold Counts at hx ⊢
    rw [after_error h] at hx
    rw [after_error (bind_error h)]
    exact hx

theorem lift {x : Except Fault α} {f : α → Act β} (hf : ∀ a, Counts (f a) m) : Counts (Act.lift x >>= f) m := by
  cases x with
  | ok a => exact .next (lift_ok rfl) ⟨⟨rfl, rfl, rfl, rfl, rfl, id⟩, rfl⟩ (hf a)
  | error e => exact .still rfl

theorem read {f : State → Act β} (hf : Counts (f m.state) m) : Counts (Act.state >>= f) m :=
  .next state_ok ⟨⟨rfl, rfl, rfl, rfl, rfl, id⟩, rfl⟩ hf

theorem readAll {f : Monitor → Act β} (hf : Counts (f m) m) : Counts (get >>= f) m :=
  .next get_ok ⟨⟨rfl, rfl, rfl, rfl, rfl, id⟩, rfl⟩ hf

theorem say {n : Note} {f : Unit → Act β} (hf : Counts (f ()) (m.say n)) : Counts (Act.say n >>= f) m :=
  .next (say_ok n) ⟨⟨rfl, rfl, rfl, rfl, rfl, id⟩, rfl⟩ hf

end Counts

theorem advance_counts (target : Phase) (m : Monitor) : Counts (advance target) m :=
  .read (.lift fun _ => .say ⟨⟨rfl, rfl, rfl, rfl, rfl, id⟩, rfl⟩)

theorem countProduced_counts (total : Nat) (m : Monitor) : Counts (countProduced total) m := by
  refine .read (.lift fun produced => .next (setState_ok _) ⟨⟨rfl, rfl, rfl, rfl, rfl, id⟩, rfl⟩ ?_)
  split
  · exact advance_counts _ _
  · exact .still rfl

theorem countConsumed_counts (m : Monitor) : Counts countConsumed m := by
  refine .read (.lift fun consumed => .next (setState_ok _) ⟨⟨rfl, rfl, rfl, rfl, rfl, id⟩, rfl⟩ ?_)
  split <;> exact .still rfl

theorem record_counts (kind : Kind) (item : Option Item) (m : Monitor) : Counts (record kind item) m :=
  .read (.lift fun _ => .next (setState_ok _) ⟨⟨rfl, rfl, rfl, rfl, rfl, id⟩, rfl⟩ (.still rfl))

theorem complete_counts (m : Monitor) : Counts complete m := by
  refine .readAll (.read ?_)
  split
  · refine .bind (advance_counts _ _) fun _ m' => .read ?_
    split
    · exact .still rfl
    · exact ⟨⟨rfl, rfl, rfl, rfl, rfl, fun _ => rfl⟩, rfl⟩
  · exact .still rfl

theorem announce_counts (watcher : Nat) (m : Monitor) : Counts (announce watcher) m :=
  .bind (record_counts _ _ _) fun _ _ => .say (.read (.still rfl))

/-- Handing in puts at most one item into the buffer. -/
theorem handIn_after (item : Item) (m : Monitor) :
    m.Undisturbed (after (handIn item) m) ∧
      (after (handIn item) m).state.buffer.len ≤ m.state.buffer.len + 1 := by
  cases hb : m.state.buffer.insert item with
  | error f =>
    have hinsert : Act.insert item m = .error f m := by
      rw [Act.insert, bind_ok state_ok, hb]
      rfl
    rw [handIn, after_error (bind_error hinsert)]
    exact ⟨⟨rfl, rfl, rfl, rfl, rfl, id⟩, Nat.le_succ _⟩
  | ok b =>
    have hrest : m.Undisturbed (after (handIn item) m) ∧ (after (handIn item) m).state.buffer = b := by
      rw [handIn, after_bind (insert_ok hb)]
      refine And.imp_left (Monitor.Undisturbed.of_buffer (b := b)) ?_
      change Counts _ { m with state := { m.state with buffer := b } }
      exact .readAll (.bind (countProduced_counts _ _) fun _ _ =>
        .bind (record_counts _ _ _) fun _ _ => ⟨⟨rfl, rfl, rfl, rfl, rfl, id⟩, rfl⟩)
    rw [hrest.2]
    exact ⟨hrest.1, Nat.le_of_eq (Buffer.len_insert hb)⟩

/-- Taking out puts nothing into the buffer, and takes one item out of it if it ends well. -/
theorem takeOut_after (m : Monitor) :
    m.Undisturbed (after takeOut m) ∧ (after takeOut m).state.buffer.len ≤ m.state.buffer.len ∧
      ∀ last m', takeOut m = .ok last m' → m'.state.buffer.len + 1 = m.state.buffer.len := by
  cases hb : m.state.buffer.remove with
  | error f =>
    have hremove : Act.remove m = .error f m := by
      rw [Act.remove, bind_ok state_ok, hb]
      rfl
    rw [takeOut, after_error (bind_error hremove), bind_error hremove]
    exact ⟨⟨rfl, rfl, rfl, rfl, rfl, id⟩, Nat.le_refl _, fun _ _ h => by cases h⟩
  | ok r =>
    obtain ⟨item, b⟩ := r
    have hlen := Buffer.len_remove hb
    have hrest : m.Undisturbed (after takeOut m) ∧ (after takeOut m).state.buffer = b := by
      rw [takeOut, after_bind (remove_ok hb)]
      refine And.imp_left (Monitor.Undisturbed.of_buffer (b := b)) ?_
      change Counts _ { m with state := { m.state with buffer := b } }
      refine .bind (countConsumed_counts _) fun consumed _ => .bind (record_counts _ _ _) fun _ _ =>
        .say (.readAll ?_)
      split
      · exact .bind (complete_counts _) fun _ _ => .still rfl
      · exact .still rfl
    refine ⟨hrest.1, by rw [hrest.2]; omega, fun last m' h => ?_⟩
    rw [← after_ok h, hrest.2]
    exact hlen

end Act

/-! ## A step uses up some of the budget -/

/-- A step that costs an agent more than it puts into the buffer, whose items are worth three steps each, and that
leaves the gate alone. -/
structure Spends (m : Monitor) (before : Nat) (m' : Monitor) (left : Nat) : Prop where
  gate : m.SameGate m'
  less : left + 3 * m'.state.buffer.len < before + 3 * m.state.buffer.len

section
variable {m m' : Monitor}

theorem Spends.of_lt {n k : Nat} (hgate : m.SameGate m') (hbuffer : m'.state.buffer = m.state.buffer)
    (hlt : k < n) : Spends m n m' k :=
  ⟨hgate, by rw [hbuffer]; omega⟩

def FailStage.left : FailStage → Nat
  | mark => 3
  | free => 2
  | filled => 1

theorem FailStage.step_keeps (stage : FailStage) (m : Monitor) :
    m.SameGate (Act.after stage.step m) ∧ (Act.after stage.step m).state.buffer = m.state.buffer := by
  cases stage with
  | mark =>
    rw [FailStage.step]
    cases hf : m.state.failed with
    | false =>
      obtain ⟨log, hmark⟩ := Act.markFailed_first hf
      rw [Act.after_bind hmark]
      exact ⟨⟨rfl, rfl, rfl⟩, rfl⟩
    | true =>
      rw [Act.after_bind (Act.markFailed_again hf)]
      exact ⟨⟨rfl, rfl, rfl⟩, rfl⟩
  | free =>
    rw [FailStage.step]
    cases hp : m.slots.post .free with
    | ok s => rw [Act.after_bind (Act.post_ok hp)]; exact ⟨⟨rfl, rfl, rfl⟩, rfl⟩
    | error f => rw [Act.after_error (Act.bind_error (Act.post_error hp))]; exact ⟨⟨rfl, rfl, rfl⟩, rfl⟩
  | filled =>
    rw [FailStage.step]
    cases hp : m.slots.post .filled with
    | ok s => rw [Act.after_bind (Act.post_ok hp)]; exact ⟨⟨rfl, rfl, rfl⟩, rfl⟩
    | error f => rw [Act.after_error (Act.bind_error (Act.post_error hp))]; exact ⟨⟨rfl, rfl, rfl⟩, rfl⟩

theorem FailStage.left_of_next {stage stage' : FailStage} (h : stage.step m = .ok (.next stage') m') :
    stage'.left < stage.left := by
  cases stage with
  | mark =>
    cases hf : m.state.failed with
    | false =>
      obtain ⟨log, hmark⟩ := Act.markFailed_first hf
      rw [FailStage.step, Act.bind_ok hmark] at h
      cases h
      decide
    | true =>
      rw [FailStage.step, Act.bind_ok (Act.markFailed_again hf)] at h
      cases h
  | free =>
    rw [FailStage.step] at h
    cases hp : m.slots.post .free with
    | ok s =>
      rw [Act.bind_ok (Act.post_ok hp)] at h
      cases h
      decide
    | error f => rw [Act.bind_error (Act.post_error hp)] at h; cases h
  | filled =>
    rw [FailStage.step] at h
    cases hp : m.slots.post .filled with
    | ok s => rw [Act.bind_ok (Act.post_ok hp)] at h; cases h
    | error f => rw [Act.bind_error (Act.post_error hp)] at h; cases h

theorem FailStage.stepAfter_spends {π : Type} (budget : π → Nat) (failing : FailStage → π) (faulted : π)
    (crashed : Fault → π) (hfailing : ∀ stage, budget (failing stage) = stage.left + 1) (hfaulted : budget faulted = 0)
    (hcrashed : ∀ f, budget (crashed f) = 0) (stage : FailStage) (m : Monitor) :
    Spends m (stage.left + 1) (stage.stepAfter failing faulted crashed m).2
      (budget (stage.stepAfter failing faulted crashed m).1) := by
  have hkeeps := stage.step_keeps m
  unfold Act.after at hkeeps
  unfold FailStage.stepAfter
  cases h : stage.step m with
  | ok progress m₁ =>
    rw [h] at hkeeps
    cases progress with
    | next stage' =>
      have hleft := FailStage.left_of_next h
      exact .of_lt hkeeps.1 hkeeps.2 (by rw [hfailing]; omega)
    | _ => exact .of_lt hkeeps.1 hkeeps.2 (by rw [hfaulted]; omega)
  | error f m₁ =>
    rw [h] at hkeeps
    exact .of_lt hkeeps.1 hkeeps.2 (by rw [hcrashed]; omega)

theorem ProducerPlace.budget_upTo (quota n : Nat) :
    (ProducerPlace.upTo quota n).budget quota = if n < quota then 6 * (quota - n) + 11 else 0 := by
  unfold ProducerPlace.upTo
  split <;> rfl

theorem producer_spends {id : Nat} {place place' : ProducerPlace} (h : place.step id m = some (place', m')) :
    Spends m (place.budget m.config.itemsPerProducer) m' (place'.budget m.config.itemsPerProducer) := by
  cases place with
  | gate =>
    simp only [ProducerPlace.step] at h
    split at h
    · split at h
      · cases h
        exact .of_lt ⟨rfl, rfl, rfl⟩ rfl (Nat.succ_pos _)
      · cases h
        refine .of_lt ⟨rfl, rfl, rfl⟩ rfl ?_
        rw [ProducerPlace.budget_upTo, ProducerPlace.budget]
        split <;> omega
    · cases h
  | ready n =>
    simp only [ProducerPlace.step] at h
    split at h
    · cases h
      exact .of_lt ⟨rfl, rfl, rfl⟩ rfl (by simp only [ProducerPlace.budget]; omega)
    · obtain ⟨m₁, hm₁, heq⟩ := Option.map_eq_some_iff.1 h
      cases heq
      obtain ⟨s, -, rfl⟩ := Option.map_eq_some_iff.1 hm₁
      exact .of_lt ⟨rfl, rfl, rfl⟩ rfl (by simp only [ProducerPlace.budget]; omega)
  | holding n =>
    simp only [ProducerPlace.step] at h
    split at h
    · cases h
      exact .of_lt ⟨rfl, rfl, rfl⟩ rfl (by simp only [ProducerPlace.budget]; omega)
    · obtain ⟨hrest, hlen⟩ := Act.handIn_after (.of id n) m
      split at h
      · rename_i hdeed
        rw [Act.after_ok hdeed] at hrest hlen
        cases h
        exact ⟨hrest.sameGate, by simp only [ProducerPlace.budget]; omega⟩
      · rename_i hdeed
        rw [Act.after_error hdeed] at hrest hlen
        cases h
        exact ⟨hrest.sameGate, by simp only [ProducerPlace.budget]; omega⟩
  | moved n =>
    simp only [ProducerPlace.step] at h
    split at h
    · cases h
      refine .of_lt ⟨rfl, rfl, rfl⟩ rfl ?_
      rw [ProducerPlace.budget_upTo, ProducerPlace.budget]
      split <;> omega
    · cases h
      exact .of_lt ⟨rfl, rfl, rfl⟩ rfl (by simp only [ProducerPlace.budget]; omega)
  | stopping n =>
    simp only [ProducerPlace.step] at h
    split at h <;> cases h <;> exact .of_lt ⟨rfl, rfl, rfl⟩ rfl (by simp only [ProducerPlace.budget]; omega)
  | unwinding f =>
    simp only [ProducerPlace.step] at h
    split at h <;> cases h <;> exact .of_lt ⟨rfl, rfl, rfl⟩ rfl (by simp only [ProducerPlace.budget]; omega)
  | failing stage f =>
    have hspends := FailStage.stepAfter_spends (ProducerPlace.budget m.config.itemsPerProducer)
      (ProducerPlace.failing · f) (.faulted f) (.crashed f)
      (fun stage => by cases stage <;> rfl) rfl (fun _ => rfl) stage m
    rw [ProducerPlace.step, Option.some.injEq] at h
    rw [h] at hspends
    cases stage <;> exact hspends
  | finished | faulted | crashed => cases h

theorem consumer_spends {place place' : ConsumerPlace} (h : place.step m = some (place', m')) :
    Spends m place.budget m' place'.budget := by
  cases place with
  | gate =>
    simp only [ConsumerPlace.step] at h
    split at h
    · split at h <;> cases h <;> exact .of_lt ⟨rfl, rfl, rfl⟩ rfl (by decide)
    · cases h
  | ready =>
    obtain ⟨m₁, hm₁, heq⟩ := Option.map_eq_some_iff.1 h
    cases heq
    obtain ⟨s, -, rfl⟩ := Option.map_eq_some_iff.1 hm₁
    exact .of_lt ⟨rfl, rfl, rfl⟩ rfl (by decide)
  | holding =>
    simp only [ConsumerPlace.step] at h
    split at h
    · cases h
      exact .of_lt ⟨rfl, rfl, rfl⟩ rfl (by simp only [ConsumerPlace.budget]; omega)
    · obtain ⟨hrest, hlen, hout⟩ := Act.takeOut_after m
      split at h
      · rename_i hdeed
        rw [Act.after_ok hdeed] at hrest
        have hlen := hout _ _ hdeed
        cases h
        exact ⟨hrest.sameGate, by simp only [ConsumerPlace.budget]; omega⟩
      · rename_i hdeed
        rw [Act.after_error hdeed] at hrest hlen
        cases h
        exact ⟨hrest.sameGate, by simp only [ConsumerPlace.budget]; omega⟩
  | moved last =>
    simp only [ConsumerPlace.step] at h
    split at h
    · cases h
      refine .of_lt ⟨rfl, rfl, rfl⟩ rfl ?_
      cases last <;> simp [ConsumerPlace.budget]
    · cases h
      exact .of_lt ⟨rfl, rfl, rfl⟩ rfl (by simp only [ConsumerPlace.budget]; omega)
  | stopping n =>
    simp only [ConsumerPlace.step] at h
    split at h <;> cases h <;> exact .of_lt ⟨rfl, rfl, rfl⟩ rfl (by simp only [ConsumerPlace.budget]; omega)
  | unwinding f =>
    simp only [ConsumerPlace.step] at h
    split at h <;> cases h <;> exact .of_lt ⟨rfl, rfl, rfl⟩ rfl (by simp only [ConsumerPlace.budget]; omega)
  | failing stage f =>
    have hspends := FailStage.stepAfter_spends ConsumerPlace.budget (ConsumerPlace.failing · f) (.faulted f) (.crashed f)
      (fun stage => by cases stage <;> rfl) rfl (fun _ => rfl) stage m
    rw [ConsumerPlace.step, Option.some.injEq] at h
    rw [h] at hspends
    cases stage <;> exact hspends
  | finished | faulted | crashed => cases h

theorem watcher_spends {id : Nat} {place place' : WatcherPlace} (h : place.step id m = some (place', m')) :
    Spends m place.budget m' place'.budget := by
  cases place with
  | gate =>
    simp only [WatcherPlace.step] at h
    split at h
    · split at h <;> cases h <;> exact .of_lt ⟨rfl, rfl, rfl⟩ rfl (by decide)
    · cases h
  | waiting =>
    simp only [WatcherPlace.step] at h
    split at h
    · split at h
      · cases h
        exact .of_lt ⟨rfl, rfl, rfl⟩ rfl (by decide)
      · obtain ⟨hrest, hbuffer⟩ := Act.announce_counts id m
        split at h
        · rename_i hdeed
          rw [Act.after_ok hdeed] at hrest hbuffer
          cases h
          exact .of_lt hrest.sameGate hbuffer (by simp only [WatcherPlace.budget]; omega)
        · rename_i hdeed
          rw [Act.after_error hdeed] at hrest hbuffer
          cases h
          exact .of_lt hrest.sameGate hbuffer (by simp only [WatcherPlace.budget]; omega)
    · cases h
  | failing stage f =>
    have hspends := FailStage.stepAfter_spends WatcherPlace.budget (WatcherPlace.failing · f) (.faulted f) (.crashed f)
      (fun stage => by cases stage <;> rfl) rfl (fun _ => rfl) stage m
    rw [WatcherPlace.step, Option.some.injEq] at h
    rw [h] at hspends
    cases stage <;> exact hspends
  | finished | faulted | crashed => cases h

theorem breaker_spends {place place' : BreakerPlace} (h : place.step m = some (place', m')) :
    Spends m place.budget m' place'.budget := by
  cases place with
  | calling stage =>
    have hbudget : ∀ stage : FailStage, (BreakerPlace.calling stage).budget = stage.left := by
      intro stage
      cases stage <;> rfl
    have hpos : 0 < stage.left := by cases stage <;> decide
    have hkeeps := stage.step_keeps m
    unfold Act.after at hkeeps
    rw [hbudget]
    simp only [BreakerPlace.step] at h
    split at h
    · rename_i hstep
      rw [hstep] at hkeeps
      cases h
      exact .of_lt hkeeps.1 hkeeps.2 (by rw [hbudget]; exact FailStage.left_of_next hstep)
    · rename_i hstep
      rw [hstep] at hkeeps
      cases h
      exact .of_lt hkeeps.1 hkeeps.2 hpos
    · rename_i hstep
      rw [hstep] at hkeeps
      cases h
      exact .of_lt hkeeps.1 hkeeps.2 hpos
  | finished | faulted => cases h

/-- **A step costs an agent more than it puts into the buffer and leaves the gate alone**, however it ends. -/
theorem Agent.step_spends {a a' : Agent} (h : a.step m = some (a', m')) :
    Spends m (a.budget m.config.itemsPerProducer) m' (a'.budget m.config.itemsPerProducer) := by
  cases a with
  | producer id place =>
    obtain ⟨place', hp, rfl⟩ := Agent.exists_place (f := Agent.producer id) h
    exact producer_spends hp
  | consumer place =>
    obtain ⟨place', hp, rfl⟩ := Agent.exists_place (f := Agent.consumer) h
    exact consumer_spends hp
  | watcher id place =>
    obtain ⟨place', hp, rfl⟩ := Agent.exists_place (f := Agent.watcher id) h
    exact watcher_spends hp
  | starter verdict =>
    obtain ⟨rfl, rfl, proceed, rfl⟩ := Agent.starter_step h
    exact .of_lt ⟨rfl, rfl, rfl⟩ rfl Nat.zero_lt_one
  | finisher found =>
    obtain ⟨rfl, rfl, flags, rfl⟩ := Agent.finisher_step h
    exact .of_lt ⟨rfl, rfl, rfl⟩ rfl Nat.zero_lt_one
  | breaker place =>
    obtain ⟨place', hp, rfl⟩ := Agent.exists_place (f := Agent.breaker) h
    exact breaker_spends hp

end

/-! ## Schedules are finite -/

theorem Agent.budgets_eq_sum (quota : Nat) : ∀ l : List Agent, Agent.budgets quota l = (l.map (Agent.budget quota)).sum
  | [] => rfl
  | a :: l => by rw [Agent.budgets, List.map_cons, List.sum_cons, budgets_eq_sum quota l]

namespace System

variable {s s' : System} {i : Nat}

theorem budget_eq (s : System) :
    s.budget = s.tally (Agent.budget s.monitor.config.itemsPerProducer) + 3 * s.monitor.state.buffer.len := by
  rw [budget, Agent.budgets_eq_sum]
  rfl

/-- **Each step uses up some of the budget.** -/
theorem step_budget_lt (h : s.step i = some s') : s'.budget < s.budget := by
  obtain ⟨-, a, a', hr, hstep, -⟩ := step_eq_some h
  obtain ⟨hgate, hless⟩ := Agent.step_spends hstep
  have htally := hr.tally_eq (Agent.budget s.monitor.config.itemsPerProducer)
  rw [budget_eq, budget_eq, hgate.config]
  omega

/-- **No schedule has more steps than the budget.** -/
theorem exec_budget_le : ∀ (schedule : List Nat) {s s' : System}, s.exec schedule = some s' →
    s'.budget + schedule.length ≤ s.budget
  | [], s, s', h => by
    cases h
    exact Nat.le_refl _
  | i :: rest, s, s', h => by
    obtain ⟨s₁, hstep, hrest⟩ := Option.bind_eq_some_iff.1 h
    have hlt := step_budget_lt hstep
    have hle := exec_budget_le rest hrest
    rw [List.length_cons]
    omega

/-! ## Going round until nobody moves -/

def turnOf (t : System × Bool) (i : Nat) : System × Bool :=
  match t.1.step i with
  | some s' => (s', true)
  | none => t

theorem round_eq (s : System) : s.round = (List.range s.agents.size).foldl turnOf (s, false) := rfl

/-- A round follows a schedule, which is empty if nobody could move. -/
theorem turnOf_foldl : ∀ (l : List Nat) (t : System × Bool), ∃ taken, t.1.exec taken = some (l.foldl turnOf t).1 ∧
    ((l.foldl turnOf t).2 = false → t.2 = false ∧ taken = [] ∧ ∀ i ∈ l, t.1.step i = none) ∧
    ((l.foldl turnOf t).2 = true → t.2 = true ∨ taken ≠ [])
  | [], t => ⟨[], rfl, fun h => ⟨h, rfl, fun _ hi => absurd hi List.not_mem_nil⟩, fun h => .inl h⟩
  | i :: l, t => by
    rw [List.foldl_cons]
    cases hstep : t.1.step i with
    | none =>
      have hsame : turnOf t i = t := by unfold turnOf; rw [hstep]
      rw [hsame]
      obtain ⟨taken, hexec, hstill, hmoved⟩ := turnOf_foldl l t
      refine ⟨taken, hexec, fun h => ?_, hmoved⟩
      obtain ⟨h₁, h₂, h₃⟩ := hstill h
      exact ⟨h₁, h₂, fun j hj => (List.mem_cons.1 hj).elim (fun hji => hji ▸ hstep) (h₃ j)⟩
    | some s' =>
      have hnext : turnOf t i = (s', true) := by unfold turnOf; rw [hstep]
      rw [hnext]
      obtain ⟨taken, hexec, hstill, -⟩ := turnOf_foldl l (s', true)
      refine ⟨i :: taken, ?_, fun h => ?_, fun _ => .inr (List.cons_ne_nil _ _)⟩
      · rw [exec, hstep]
        exact hexec
      · cases (hstill h).1

theorem step_of_size_le (h : s.agents.size ≤ i) : s.step i = none := by
  unfold step
  rw [Array.getElem?_eq_none h]
  split <;> rfl

/-- **Going round often enough ends where nobody can move.** -/
theorem rounds_stuck : ∀ (n : Nat) (s : System), s.budget ≤ n →
    ∃ taken, s.exec taken = some (rounds n s) ∧ ∀ i, (rounds n s).step i = none
  | 0, s, hn => by
    refine ⟨[], rfl, fun i => ?_⟩
    cases hstep : (rounds 0 s).step i with
    | none => rfl
    | some s' =>
      have hlt : s'.budget < s.budget := step_budget_lt hstep
      omega
  | n + 1, s, hn => by
    obtain ⟨taken, hexec, hstill, hmoved⟩ := turnOf_foldl (List.range s.agents.size) (s, false)
    rw [← round_eq] at hexec hstill hmoved
    rw [rounds]
    cases hround : s.round with
    | mk s' moved =>
      rw [hround] at hexec hstill hmoved
      cases moved with
      | true =>
        have hne := (hmoved rfl).resolve_left Bool.false_ne_true
        have hle : s'.budget + taken.length ≤ s.budget := exec_budget_le taken hexec
        have hpos := List.length_pos_iff.2 hne
        obtain ⟨rest, hrest, hstuck⟩ := rounds_stuck n s' (by omega)
        exact ⟨taken ++ rest, by rw [exec_append, hexec]; exact hrest, hstuck⟩
      | false =>
        obtain ⟨-, rfl, hnone⟩ := hstill rfl
        cases hexec
        refine ⟨[], rfl, fun i => ?_⟩
        by_cases hi : i < s.agents.size
        · exact hnone i (List.mem_range.2 hi)
        · exact step_of_size_le (Nat.not_lt.1 hi)

/-- **A system that has settled got there by a schedule, and nobody can move.** -/
theorem settle_stuck (s : System) : ∃ taken, s.exec taken = some s.settle ∧ ∀ i, s.settle.step i = none :=
  rounds_stuck s.budget s (Nat.le_refl _)

end System
end Handover
