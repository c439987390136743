import Handover.System
import Mathlib.Algebra.BigOperators.Ring.List
import Mathlib.Algebra.Order.BigOperators.Group.List
import Mathlib.Algebra.Order.Ring.Nat
import Mathlib.Data.List.Nodup
import Mathlib.Data.List.Perm.Subperm
/-!
# Census — sums and names over the agents of a system

A step replaces one agent of a system by its next self, and a newcomer stands behind the others.  The lemmas here say
what that does to a sum over the agents (`System.tally`), to a number of agents (`System.count`), and to the names.
-/
namespace Handover
namespace System

variable {s : System} {i : Nat} {a a' : Agent}

def tally (s : System) (f : Agent → Nat) : Nat := (s.agents.toList.map f).sum

def count (s : System) (p : Agent → Bool) : Nat := s.agents.toList.countP p

/-- The names of the agents that have one, in the order in which they came. -/
def names (s : System) : List AgentName := s.agents.toList.filterMap Agent.name?

/-- **The system after agent `i` has become `a'`.** -/
structure Replaces (s s' : System) (i : Nat) (a a' : Agent) : Prop where
  before : s.agents.toList[i]? = some a
  after : s'.agents.toList = s.agents.toList.set i a'

theorem sum_map_set (f : Agent → Nat) : ∀ (l : List Agent) (i : Nat), l[i]? = some a →
    ((l.set i a').map f).sum + f a = (l.map f).sum + f a'
  | [], _, h => by cases h
  | x :: l, 0, h => by
    rw [List.getElem?_cons_zero, Option.some.injEq] at h
    subst h
    rw [List.set_cons_zero, List.map_cons, List.map_cons, List.sum_cons, List.sum_cons]
    omega
  | x :: l, i + 1, h => by
    rw [List.getElem?_cons_succ] at h
    rw [List.set_cons_succ, List.map_cons, List.map_cons, List.sum_cons, List.sum_cons]
    have := sum_map_set f l i h
    omega

theorem countP_eq_sum (p : Agent → Bool) : ∀ l : List Agent, l.countP p = (l.map fun a => (p a).toNat).sum
  | [] => rfl
  | x :: l => by
    rw [List.countP_cons, List.map_cons, List.sum_cons, countP_eq_sum p l]
    cases p x <;> simp [Nat.add_comm]

theorem count_eq_tally (s : System) (p : Agent → Bool) : s.count p = s.tally fun a => (p a).toNat :=
  countP_eq_sum p _

theorem filterMap_set {β : Type} (f : Agent → Option β) : ∀ (l : List Agent) (i : Nat), l[i]? = some a →
    f a' = f a → (l.set i a').filterMap f = l.filterMap f
  | [], _, h, _ => by cases h
  | x :: l, 0, h, hf => by
    rw [List.getElem?_cons_zero, Option.some.injEq] at h
    subst h
    rw [List.set_cons_zero, List.filterMap_cons, List.filterMap_cons, hf]
  | x :: l, i + 1, h, hf => by
    rw [List.getElem?_cons_succ] at h
    rw [List.set_cons_succ, List.filterMap_cons, List.filterMap_cons, filterMap_set f l i h hf]

/-- What an agent gives that gave nothing before joins what the others give. -/
theorem filterMap_set_perm {β : Type} (f : Agent → Option β) {b : β} : ∀ (l : List Agent) (i : Nat), l[i]? = some a →
    f a = none → f a' = some b → ((l.set i a').filterMap f).Perm (b :: l.filterMap f)
  | [], _, h, _, _ => by cases h
  | x :: l, 0, h, hf, hf' => by
    rw [List.getElem?_cons_zero, Option.some.injEq] at h
    subst h
    rw [List.set_cons_zero, List.filterMap_cons, List.filterMap_cons, hf, hf']
  | x :: l, i + 1, h, hf, hf' => by
    rw [List.getElem?_cons_succ] at h
    have ih := filterMap_set_perm f l i h hf hf'
    rw [List.set_cons_succ, List.filterMap_cons, List.filterMap_cons]
    cases f x with
    | none => exact ih
    | some y => exact (ih.cons y).trans (List.Perm.swap b y _)

/-! ## Bounds on a sum -/

theorem le_tally (s : System) (f : Agent → Nat) (ha : a ∈ s.agents.toList) : f a ≤ s.tally f :=
  List.le_sum_of_mem (List.mem_map_of_mem ha)

theorem tally_le {f g : Agent → Nat} (h : ∀ a ∈ s.agents.toList, f a ≤ g a) : s.tally f ≤ s.tally g :=
  List.sum_le_sum h

theorem tally_lt {f g : Agent → Nat} (h : ∀ a ∈ s.agents.toList, f a ≤ g a) (ha : a ∈ s.agents.toList)
    (hlt : f a < g a) : s.tally f < s.tally g :=
  List.sum_lt_sum f g h ⟨a, ha, hlt⟩

theorem tally_congr {f g : Agent → Nat} (h : ∀ a ∈ s.agents.toList, f a = g a) : s.tally f = s.tally g := by
  unfold tally
  rw [List.map_congr_left h]

theorem tally_eq_zero {f : Agent → Nat} (h : ∀ a ∈ s.agents.toList, f a = 0) : s.tally f = 0 := by
  refine List.sum_eq_zero fun n hn => ?_
  obtain ⟨a, ha, rfl⟩ := List.mem_map.1 hn
  exact h a ha

theorem count_eq_zero {p : Agent → Bool} (h : ∀ a ∈ s.agents.toList, p a = false) : s.count p = 0 :=
  List.countP_eq_zero.2 fun a ha hp => Bool.false_ne_true ((h a ha).symm.trans hp)

theorem tally_add (s : System) (f g : Agent → Nat) : s.tally (fun a => f a + g a) = s.tally f + s.tally g :=
  List.sum_map_add

theorem tally_mul (s : System) (p : Agent → Bool) (n : Nat) : s.tally (fun a => (p a).toNat * n) = s.count p * n := by
  rw [count_eq_tally, tally, tally, List.sum_map_mul_right]

namespace Replaces

variable {s' : System}

theorem mem (h : Replaces s s' i a a') : a ∈ s.agents.toList := List.mem_of_getElem? h.before

/-- **A sum changes by what the one agent counts for.** -/
theorem tally_eq (h : Replaces s s' i a a') (f : Agent → Nat) : s'.tally f + f a = s.tally f + f a' := by
  unfold tally
  rw [h.after]
  exact sum_map_set f _ i h.before

theorem count_eq (h : Replaces s s' i a a') (p : Agent → Bool) :
    s'.count p + (p a).toNat = s.count p + (p a').toNat := by
  rw [count_eq_tally, count_eq_tally]
  exact h.tally_eq _

theorem count_eq_of_eq (h : Replaces s s' i a a') {p : Agent → Bool} (hp : p a' = p a) : s'.count p = s.count p := by
  have hcount := h.count_eq p
  rw [hp] at hcount
  omega

theorem names_eq (h : Replaces s s' i a a') (hname : a'.name? = a.name?) : s'.names = s.names := by
  unfold names
  rw [h.after]
  exact filterMap_set _ _ i h.before hname

theorem moved (h : Replaces s s' i a a') : s'.agents.toList[i]? = some a' := by
  rw [h.after]
  exact List.getElem?_set_self (List.getElem?_eq_some_iff.1 h.before).1

theorem others (h : Replaces s s' i a a') {j : Nat} (hji : j ≠ i) : s'.agents.toList[j]? = s.agents.toList[j]? := by
  rw [h.after]
  exact List.getElem?_set_ne hji.symm

/-- Whoever is there afterwards is the agent that moved, or was there before at another place. -/
theorem mem_after (h : Replaces s s' i a a') {x : Agent} (hx : x ∈ s'.agents.toList) :
    x = a' ∨ ∃ j, j ≠ i ∧ s.agents.toList[j]? = some x := by
  obtain ⟨j, hj⟩ := List.mem_iff_getElem?.1 hx
  by_cases hji : j = i
  · subst hji
    exact .inl (Option.some.inj (hj.symm.trans h.moved))
  · exact .inr ⟨j, hji, (h.others hji).symm.trans hj⟩

theorem forall_after (h : Replaces s s' i a a') {P : Agent → Prop} (hold : ∀ x ∈ s.agents.toList, P x) (hnew : P a') :
    ∀ x ∈ s'.agents.toList, P x := by
  intro x hx
  rcases h.mem_after hx with rfl | ⟨j, -, hj⟩
  · exact hnew
  · exact hold x (List.mem_of_getElem? hj)

end Replaces

/-- **A step, unpacked.** -/
theorem step_eq_some {s' : System} (h : s.step i = some s') :
    s.halted = false ∧ ∃ a a', Replaces s s' i a a' ∧ a.step s.monitor = some (a', s'.monitor) ∧
      s'.halted = a'.isCrashed := by
  unfold step at h
  split at h
  · cases h
  rename_i hhalted
  cases hget : s.agents[i]? with
  | none => rw [hget] at h; cases h
  | some a =>
    rw [hget] at h
    obtain ⟨⟨a', m⟩, hstep, rfl⟩ := Option.map_eq_some_iff.1 h
    refine ⟨by simpa using hhalted, a, a', ⟨?_, ?_⟩, hstep, rfl⟩
    · rw [Array.getElem?_toList]; exact hget
    · exact Array.toList_setIfInBounds

theorem step_isSome_eq (hhalted : s.halted = false) (h : s.agents[i]? = some a) :
    (s.step i).isSome = (a.step s.monitor).isSome := by
  unfold step
  rw [hhalted, h]
  exact Option.isSome_map

/-! ## Newcomers -/

theorem toList_join (s : System) (a : Agent) : (s.join a).agents.toList = s.agents.toList ++ [a] := Array.toList_push

/-- What holds of everybody holds with a newcomer of whom it holds. -/
theorem forall_join {P : Agent → Prop} (hold : ∀ x ∈ s.agents.toList, P x) (hnew : P a) :
    ∀ x ∈ (s.join a).agents.toList, P x := by
  intro x hx
  rw [toList_join, List.mem_append, List.mem_singleton] at hx
  rcases hx with hx | rfl
  · exact hold x hx
  · exact hnew

@[simp] theorem tally_join (s : System) (a : Agent) (f : Agent → Nat) : (s.join a).tally f = s.tally f + f a := by
  simp [tally, join]

@[simp] theorem count_join (s : System) (a : Agent) (p : Agent → Bool) :
    (s.join a).count p = s.count p + (p a).toNat := by
  rw [count_eq_tally, count_eq_tally, tally_join]

theorem names_join (s : System) {a : Agent} {name : AgentName} (h : a.name? = some name) :
    (s.join a).names = s.names ++ [name] := by
  simp [names, join, h]

/-! ## Names -/

end System

def AgentName.isProducer : AgentName → Bool
  | producer _ => true
  | _ => false

def AgentName.isWatcher : AgentName → Bool
  | watcher _ => true
  | _ => false

def AgentName.isConsumer : AgentName → Bool
  | consumer => true
  | _ => false

def Agent.named (p : AgentName → Bool) (a : Agent) : Bool := a.name?.any p

namespace Config

theorem countP_roster_producer (c : Config) : c.roster.countP AgentName.isProducer = c.producers := by
  simp [roster, List.countP_map, AgentName.isProducer, Function.comp_def]

theorem countP_roster_watcher (c : Config) : c.roster.countP AgentName.isWatcher = c.watchers := by
  simp [roster, List.countP_map, AgentName.isWatcher, Function.comp_def]

theorem countP_roster_consumer (c : Config) : c.roster.countP AgentName.isConsumer = 1 := by
  simp [roster, List.countP_cons, List.countP_map, AgentName.isConsumer, Function.comp_def]

theorem nodup_roster (c : Config) : c.roster.Nodup := by
  have hw : ((List.range c.watchers).map AgentName.watcher).Nodup :=
    List.Nodup.map (fun _ _ h => AgentName.watcher.inj h) List.nodup_range
  have hp : ((List.range c.producers).map AgentName.producer).Nodup :=
    List.Nodup.map (fun _ _ h => AgentName.producer.inj h) List.nodup_range
  refine List.nodup_cons.2 ⟨by simp, List.nodup_append.2 ⟨hw, hp, ?_⟩⟩
  simp

theorem mem_roster_producer {c : Config} {id : Nat} : .producer id ∈ c.roster ↔ id < c.producers := by
  simp [roster]

end Config

namespace System

variable {s : System} {i : Nat} {a a' : Agent}

theorem count_named (s : System) (p : AgentName → Bool) : s.count (Agent.named p) = s.names.countP p := by
  rw [names, List.countP_filterMap, count]
  congr 1
  funext a
  unfold Agent.named
  cases a.name? <;> rfl

theorem count_named_le (hnd : s.names.Nodup) {l : List AgentName} (hsub : ∀ n ∈ s.names, n ∈ l)
    (p : AgentName → Bool) : s.count (Agent.named p) ≤ l.countP p := by
  rw [count_named]
  exact (List.subperm_of_subset hnd hsub).countP_le p

theorem eq_of_name_eq : ∀ (l : List Agent), (l.filterMap Agent.name?).Nodup → ∀ {i j : Nat} {a b : Agent}
    {name : AgentName}, l[i]? = some a → l[j]? = some b → a.name? = some name → b.name? = some name → i = j
  | [], _, _, _, _, _, _, h, _, _, _ => by cases h
  | x :: l, hnd, i, j, a, b, name, hi, hj, ha, hb => by
    have hmem : ∀ {k : Nat} {y : Agent}, l[k]? = some y → y.name? = some name → name ∈ l.filterMap Agent.name? :=
      fun hk hy => List.mem_filterMap.2 ⟨_, List.mem_of_getElem? hk, hy⟩
    have htail : (l.filterMap Agent.name?).Nodup := by
      rw [List.filterMap_cons] at hnd
      split at hnd
      · exact hnd
      · exact (List.nodup_cons.1 hnd).2
    have hhead : x.name? = some name → name ∉ l.filterMap Agent.name? := by
      intro hx
      rw [List.filterMap_cons, hx] at hnd
      exact (List.nodup_cons.1 hnd).1
    cases i with
    | zero =>
      cases j with
      | zero => rfl
      | succ j =>
        cases Option.some.inj hi
        exact absurd (hmem hj hb) (hhead ha)
    | succ i =>
      cases j with
      | zero =>
        cases Option.some.inj hj
        exact absurd (hmem hi ha) (hhead hb)
      | succ j => rw [eq_of_name_eq l htail hi hj ha hb]

end System
end Handover
