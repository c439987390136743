import Handover.Config
/-!
# Name — who takes part in a run

A run has one consumer, and watchers and producers numbered from zero, as many as its configuration says.  They come in
this order, each after the one before it (`Config.successor?`), so a run can begin however many are to come.
-/
namespace Handover

inductive AgentName where
  | consumer
  | watcher (id : Nat)
  | producer (id : Nat)
  deriving DecidableEq, Repr, Inhabited

def AgentName.text : AgentName → String
  | consumer => "consumer"
  | watcher id => s!"watcher-{id}"
  | producer id => s!"producer-{id}"

namespace Config

/-- All who take part, in the order in which they come. -/
def roster (c : Config) : List AgentName :=
  .consumer :: ((List.range c.watchers).map .watcher ++ (List.range c.producers).map .producer)

def firstProducer? (c : Config) : Option AgentName := if 0 < c.producers then some (.producer 0) else none

/-- The one who comes next: the watchers come after the consumer and the producers after the watchers. -/
def successor? (c : Config) : AgentName → Option AgentName
  | .consumer => if 0 < c.watchers then some (.watcher 0) else c.firstProducer?
  | .watcher id => if id + 1 < c.watchers then some (.watcher (id + 1)) else c.firstProducer?
  | .producer id => if id + 1 < c.producers then some (.producer (id + 1)) else none

def countAfter (c : Config) : AgentName → Nat
  | .consumer => c.watchers + c.producers
  | .watcher id => c.watchers - (id + 1) + c.producers
  | .producer id => c.producers - (id + 1)

theorem firstProducer?_eq_some {c : Config} {name : AgentName} :
    c.firstProducer? = some name ↔ 0 < c.producers ∧ name = .producer 0 := by
  unfold firstProducer?
  split <;> simp_all [eq_comm]

/-- **Each one who comes leaves one fewer to come.** -/
theorem countAfter_of_successor {c : Config} {name next : AgentName} (h : c.successor? name = some next) :
    c.countAfter next + 1 = c.countAfter name := by
  cases name with
  | consumer =>
    rw [successor?] at h
    split at h
    · cases h
      simp only [countAfter]
      omega
    · obtain ⟨hp, rfl⟩ := firstProducer?_eq_some.1 h
      simp only [countAfter]
      omega
  | watcher id =>
    rw [successor?] at h
    split at h
    · cases h
      simp only [countAfter]
      omega
    · obtain ⟨hp, rfl⟩ := firstProducer?_eq_some.1 h
      simp only [countAfter]
      omega
  | producer id =>
    rw [successor?] at h
    split at h
    · cases h
      simp only [countAfter]
      omega
    · cases h

end Config

end Handover
