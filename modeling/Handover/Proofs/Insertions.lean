import Handover.Proofs.Underway
/-!
# Insertions — how many items each producer has put in

The items that a producer puts in are counted along the schedule (`Run.insertions`), not read off the state.  At every
moment of a run the place of a producer says the same number, unless it has stopped on a fault, and together the numbers
make up what was produced (`System.PutIn`).
-/
namespace Handover

/-! ## Counting along a schedule -/

/-- Producer `p` has put an item in between these two places. -/
def Agent.handsIn (p : Nat) : Agent → Agent → Bool
  | producer id (.holding _), producer _ (.moved _) => id == p
  | _, _ => false

def System.handsIn (p : Nat) (s s' : System) (i : Nat) : Bool :=
  match s.agents[i]?, s'.agents[i]? with
  | some a, some a' => a.handsIn p a'
  | _, _ => false

/-- How many items producer `p` puts in along a schedule. -/
def Run.insertions (p : Nat) : Run → List (Option Nat) → Nat
  | _, [] => 0
  | r, none :: rest => (r.launch.map (insertions p · rest)).getD 0
  | r, some i :: rest => match r.step (some i) with
    | some r' => (System.handsIn p r.system r'.system i).toNat + insertions p r' rest
    | none => 0

/-- **What every step keeps holds all through a run**, of the items that were put in up to then. -/
theorem Run.exec_insertions {P : (Nat → Nat) → Run → Prop}
    (hlaunch : ∀ {k : Nat → Nat} {r r' : Run}, P k r → r.launch = some r' → P k r')
    (hstep : ∀ {k : Nat → Nat} {r : Run} {i : Nat} {s : System}, P k r → r.system.step i = some s →
      P (fun p => k p + (System.handsIn p r.system s i).toNat) { r with system := s }) :
    ∀ (schedule : List (Option Nat)) {k : Nat → Nat} {r r' : Run}, P k r → r.exec schedule = some r' →
      P (fun p => k p + r.insertions p schedule) r'
  | [], k, r, r', hp, h => by
    cases h
    exact hp
  | none :: rest, k, r, r', hp, h => by
    obtain ⟨r₁, hfirst, hrest⟩ := Option.bind_eq_some_iff.1 h
    have hend := exec_insertions (P := P) hlaunch hstep rest (hlaunch hp hfirst) hrest
    simp only [insertions, show r.launch = some r₁ from hfirst, Option.map_some, Option.getD_some]
    exact hend
  | some i :: rest, k, r, r', hp, h => by
    obtain ⟨r₁, hfirst, hrest⟩ := Option.bind_eq_some_iff.1 h
    obtain ⟨s, hs, rfl⟩ := Option.map_eq_some_iff.1 hfirst
    have hend := exec_insertions (P := P) hlaunch hstep rest (hstep hp hs) hrest
    simp only [insertions, hfirst, ← Nat.add_assoc]
    exact hend

namespace Agent

theorem name_of_handsIn {p : Nat} {a a' : Agent} (h : a.handsIn p a' = true) : a.name? = some (.producer p) := by
  unfold handsIn at h
  split at h
  · rw [beq_iff_eq] at h
    subst h
    rfl
  · cases h

theorem handsIn_of_faulty {a' : Agent} (h : a'.isFaulty = true) (p : Nat) (a : Agent) : a.handsIn p a' = false := by
  unfold handsIn
  split
  · cases h
  · rfl

/-- The items that the agent has put in, where producer `p` has put in `k p`. -/
def share (k : Nat → Nat) : Agent → Nat
  | producer p _ => k p
  | _ => 0

theorem share_of_name {k : Nat → Nat} {a a' : Agent} (h : a'.name? = a.name?) : a'.share k = a.share k := by
  cases a <;> cases a' <;> cases h <;> rfl

theorem share_add (k l : Nat → Nat) (a : Agent) : a.share (fun p => k p + l p) = a.share k + a.share l := by
  cases a <;> rfl

end Agent

theorem Turn.insertions_eq {m : Monitor} {a a' : Agent} {e : Effect} (h : Turn m a e a') {p : Nat}
    (hname : a.name? = some (.producer p)) : e.insertions = (a.handsIn p a').toNat := by
  cases h with
  | producerHandsIn id n =>
    cases hname
    change 1 = (p == p).toNat
    rw [beq_self_eq_true, Bool.toNat_true]
  | _ => rfl

/-! ## All producers together -/

namespace System

/-- **Producer `p` has put in `k p` items**: its place says so, whoever is not there has put in nothing, and together
they make up what was produced. -/
structure PutIn (k : Nat → Nat) (s : System) : Prop where
  places : ∀ a ∈ s.agents.toList, ∀ p, a.name? = some (.producer p) → a.isFaulty = false → a.inserts = k p
  absent : ∀ p, .producer p ∉ s.names → k p = 0
  total : s.tally (Agent.share k) = s.monitor.state.produced

variable {c : Config} {s s' : System} {a a' : Agent} {i : Nat} {k : Nat → Nat}

theorem Replaces.handsIn_eq (hr : Replaces s s' i a a') (p : Nat) : System.handsIn p s s' i = a.handsIn p a' := by
  have hbefore : s.agents[i]? = some a := by rw [← Array.getElem?_toList]; exact hr.before
  have hafter : s'.agents[i]? = some a' := by rw [← Array.getElem?_toList]; exact hr.moved
  unfold System.handsIn
  rw [hbefore, hafter]

/-- Of the producers that are there one has put an item in, or none. -/
theorem Replaces.tally_handsIn (hr : Replaces s s' i a a') (hnodup : s.names.Nodup) {m : Monitor} {e : Effect}
    (ht : Turn m a e a') : s'.tally (Agent.share fun p => (a.handsIn p a').toNat) = e.insertions := by
  have hnames := hr.names_eq ht.name_eq
  cases ht with
  | producerHandsIn id n =>
    have hshare (x : Agent) : x.share (fun p => ((Agent.producer id (.holding n)).handsIn p
        (.producer id (.moved n))).toNat) = (x.named (· == .producer id)).toNat := by
      cases x with
      | producer p place =>
        have hsame : (id == p) = (AgentName.producer p == .producer id) := by
          rw [Bool.eq_iff_iff, beq_iff_eq, beq_iff_eq, AgentName.producer.injEq, eq_comm]
        exact congrArg Bool.toNat hsame
      | consumer | watcher | starter | finisher | breaker => rfl
    have hmem : AgentName.producer id ∈ s.names := List.mem_filterMap.2 ⟨_, hr.mem, rfl⟩
    rw [tally_congr fun x _ => hshare x, ← count_eq_tally, count_named, hnames]
    exact List.count_eq_one_of_mem hnodup hmem
  | _ => exact tally_eq_zero fun x _ => by cases x <;> rfl

/-- **A turn keeps the count**, with the item that it puts in. -/
theorem PutIn.turn (hp : s.PutIn k) (hs : s.Sound c) {e : Effect} (hr : Replaces s s' i a a')
    (ht : Turn s.monitor a e a') (he : e.Leads s.monitor s'.monitor) :
    s'.PutIn (fun p => k p + (a.handsIn p a').toNat) := by
  have hnames := hr.names_eq ht.name_eq
  refine ⟨fun x hx p hname hwhole => ?_, fun p hno => ?_, ?_⟩
  · rcases hr.mem_after hx with rfl | ⟨j, hji, hj⟩
    · rw [ht.name_eq] at hname
      rw [ht.inserts_eq hs.config (hs.stands a hr.mem), hp.places a hr.mem p hname ht.whole_before,
        ht.insertions_eq hname]
    · -- somebody else, so not the producer that put an item in
      have hno : a.handsIn p a' = false := by
        rw [Bool.eq_false_iff]
        exact fun hin => hji (eq_of_name_eq _ hs.nodup hj hr.before hname (Agent.name_of_handsIn hin))
      rw [hno]
      exact hp.places x (List.mem_of_getElem? hj) p hname hwhole
  · rw [hnames] at hno
    have hout : a.handsIn p a' = false := by
      rw [Bool.eq_false_iff]
      exact fun hin => hno (List.mem_filterMap.2 ⟨a, hr.mem, Agent.name_of_handsIn hin⟩)
    rw [hout]
    exact hp.absent p hno
  · have hsame := hr.tally_eq (Agent.share k)
    rw [Agent.share_of_name ht.name_eq, Nat.add_right_cancel_iff] at hsame
    calc s'.tally (Agent.share fun p => k p + (a.handsIn p a').toNat)
        = s'.tally (Agent.share k) + s'.tally (Agent.share fun p => (a.handsIn p a').toNat) := by
          rw [← tally_add]
          exact tally_congr fun x _ => Agent.share_add k _ x
      _ = s.monitor.state.produced + e.insertions := by rw [hsame, hp.total, hr.tally_handsIn hs.nodup ht]
      _ = s'.monitor.state.produced := he.numbers.1.symm

theorem PutIn.fault (hp : s.PutIn k) (hr : Replaces s s' i a a') (hfault : FaultsTo s.monitor a a' s'.monitor) :
    s'.PutIn k := by
  refine ⟨fun x hx p hname hwhole => ?_, fun p hno => ?_, ?_⟩
  · rcases hr.mem_after hx with rfl | ⟨j, -, hj⟩
    · rw [hfault.faulty] at hwhole
      cases hwhole
    · exact hp.places x (List.mem_of_getElem? hj) p hname hwhole
  · rw [hr.names_eq hfault.name] at hno
    exact hp.absent p hno
  · have hsame := hr.tally_eq (Agent.share k)
    rw [Agent.share_of_name hfault.name, Nat.add_right_cancel_iff] at hsame
    rw [hsame, hfault.state]
    exact hp.total

/-- **A step keeps the count.** -/
theorem PutIn.step (hp : s.PutIn k) (hs : s.Sound c) (hc : c.Fits) (h : s.step i = some s') :
    s'.PutIn (fun p => k p + (System.handsIn p s s' i).toNat) := by
  obtain ⟨a, a', hr, -, -, ⟨-, e, ht, he⟩ | ⟨-, hfault⟩⟩ := hs.step_cases hc h
  · simp only [hr.handsIn_eq]
    exact hp.turn hs hr ht he
  · simp only [hr.handsIn_eq, Agent.handsIn_of_faulty hfault.faulty, Bool.toNat_false, Nat.add_zero]
    exact hp.fault hr hfault

/-- A newcomer has put in nothing. -/
theorem PutIn.join (hp : s.PutIn k) {name : AgentName} (hnew : name ∉ s.names) : (s.join (.atGate name)).PutIn k := by
  refine ⟨fun x hx p hname hwhole => ?_, fun p hno => ?_, ?_⟩
  · rw [s.toList_join, List.mem_append, List.mem_singleton] at hx
    rcases hx with hx | rfl
    · exact hp.places x hx p hname hwhole
    · rw [Agent.atGate_name, Option.some.injEq] at hname
      subst hname
      exact (hp.absent p hnew).symm
  · refine hp.absent p fun hmem => hno ?_
    rw [s.names_join (Agent.atGate_name name)]
    exact List.mem_append_left _ hmem
  · have hshare : (Agent.atGate name).share k = 0 := by
      cases name with
      | producer p => exact hp.absent p hnew
      | consumer | watcher => rfl
    rw [tally_join, hshare]
    exact hp.total

theorem PutIn.none (hnames : s.names = []) (hproduced : s.monitor.state.produced = 0) : s.PutIn fun _ => 0 := by
  refine ⟨fun a ha p hname _ => ?_, fun _ _ => rfl, ?_⟩
  · have hmem : AgentName.producer p ∈ s.names := List.mem_filterMap.2 ⟨a, ha, hname⟩
    rw [hnames] at hmem
    cases hmem
  · rw [hproduced]
    exact tally_eq_zero fun a _ => by cases a <;> rfl

end System
end Handover
