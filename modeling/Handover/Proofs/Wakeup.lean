import Handover.Lock.Latch
import Mathlib.Data.List.Basic
/-!
# Wakeup — no wake-up at a latch is lost

Threads come to wait for latches and to open them, each in a critical section of the one mutex in which it may make more
calls, and whoever holds the mutex may change the value.  `Shared.play` lets them move in any order, with wake-ups that
have no cause at any moments.  A latch is `Ajar` from the end of its one broadcast on.  A thread joins a wait set only
while the flag is not set, the flag is set in the same critical section that wakes the wait set, and from then on nobody
joins it; so nobody is in the wait set of a latch that is ajar (`Sound.awake`).  The first call that opens a latch
returns `true` at the moment when the latch becomes ajar, and every later one returns `false` (`Sound.told`).

The latches are any number behind one mutex, and the start gate and the completion latch of a monitor are two of them.
-/
namespace Handover
namespace Latch

variable {ι σ : Type}

/-- What a thread asks of a latch. -/
inductive Call (ι : Type) where
  | awaits (l : ι)
  | opens (l : ι)
  deriving DecidableEq, Repr

/-- A thread that makes a call and has to take the mutex for it. -/
def Call.outside : Call ι → Thread ι σ
  | awaits l => .arriving l
  | opens l => .opening l

/-- A thread that makes a call and has the mutex. -/
def Call.inside : Call ι → Thread ι σ
  | awaits l => .checking l
  | opens l => .setting l

namespace Thread

/-- It holds the mutex. -/
def holds : Thread ι σ → Bool
  | checking _ | passing _ | setting _ | broadcasting _ | leaving _ => true
  | _ => false

/-- Its call is over and it holds the mutex still. -/
def lingers : Thread ι σ → Bool
  | passing _ | leaving _ => true
  | _ => false

/-- The latch that it is in the middle of opening, mutex in hand. -/
def opens? : Thread ι σ → Option ι
  | setting l | broadcasting l => some l
  | _ => none

/-- A call that opens a latch returns when a thread goes from the one place to the other. -/
def returns? : Thread ι σ → Thread ι σ → Option (ι × Bool)
  | setting l, leaving b | broadcasting l, leaving b => some (l, b)
  | _, _ => none

theorem holds_of_lingers {t : Thread ι σ} (h : t.lingers = true) : t.holds = true := by
  cases t with
  | passing v => rfl
  | leaving b => rfl
  | _ => cases h

theorem returns?_of_lingers {t : Thread ι σ} (h : t.lingers = true) (t' : Thread ι σ) : t.returns? t' = none := by
  cases t with
  | passing v => rfl
  | leaving b => rfl
  | _ => cases h

theorem holds_inside (c : Call ι) : (c.inside : Thread ι σ).holds = true := by
  cases c <;> rfl

variable [DecidableEq ι] {l k : ι} {t u : Thread ι σ}

theorem wake_eq_iff (hu : u.holds = true) : t.wake l = u ↔ t = u := by
  cases t with
  | suspended j =>
    simp only [wake]
    split <;> grind [holds]
  | _ => rfl

theorem wake_eq_suspended : t.wake l = suspended k ↔ t = suspended k ∧ k ≠ l := by
  cases t with
  | suspended j =>
    simp only [wake]
    split <;> grind
  | _ => simp [wake]

end Thread

/-- What happens next. -/
inductive Move (ι σ : Type) where
  /-- One more thread comes with a call. -/
  | join (c : Call ι)
  | step (i : Nat)
  | wakeUp (i : Nat)
  /-- A thread whose call is over makes another one before it gives the mutex up. -/
  | again (i : Nat) (c : Call ι)
  /-- Whoever holds the mutex, or takes it for this alone, changes the value. -/
  | store (v : σ)
  deriving DecidableEq, Repr

namespace Shared

variable [DecidableEq ι]

def again (s : Shared ι σ) (i : Nat) (c : Call ι) : Option (Shared ι σ) :=
  match s.threads[i]? with
  | none => none
  | some t => if t.lingers then some (s.move i c.inside) else none

def next? (s : Shared ι σ) : Move ι σ → Option (Shared ι σ)
  | .join c => some (s.join c.outside)
  | .step i => s.step i
  | .wakeUp i => s.wakeUp i
  | .again i c => s.again i c
  | .store v => some { s with value := v }

/-- The call that opens a latch and returns with this move, and its result. -/
def returned? (s s' : Shared ι σ) : Move ι σ → Option (ι × Bool)
  | .step i => (s.threads[i]?).bind fun t => (s'.threads[i]?).bind fun t' => t.returns? t'
  | _ => none

/-- The state after some moves, and the results of the calls that opened latches, in their order. -/
def play : Shared ι σ → List (Move ι σ) → Option (Shared ι σ × List (ι × Bool))
  | s, [] => some (s, [])
  | s, m :: rest => (s.next? m).bind fun s' =>
    (s'.play rest).map fun (s'', results) => (s'', (s.returned? s' m).toList ++ results)

/-- **The latch was opened and its wait set was woken.** -/
def Ajar (s : Shared ι σ) (l : ι) : Prop :=
  s.flags l = true ∧ ∀ i : Nat, s.threads[i]? ≠ some (.broadcasting l)

end Shared

/-- The results of the calls that opened this latch. -/
def resultsOf [DecidableEq ι] (l : ι) (results : List (ι × Bool)) : List Bool :=
  (results.filter (·.1 = l)).map Prod.snd

theorem resultsOf_append [DecidableEq ι] (l : ι) (xs ys : List (ι × Bool)) :
    resultsOf l (xs ++ ys) = resultsOf l xs ++ resultsOf l ys := by
  simp [resultsOf]

namespace Shared

variable {s s' s₁ : Shared ι σ} {i j : Nat} {t t' u : Thread ι σ} {k l : ι} {m : Move ι σ}
  {results : List (ι × Bool)}

/-! ## What a move does -/

theorem lock?_eq_some (h : s.lock? i t = some s') :
    s.holder = none ∧ s' = { s with holder := some i }.move i t := by
  unfold lock? at h
  split at h
  next hfree => exact ⟨hfree, (Option.some.inj h).symm⟩
  next => cases h

theorem wakeUp_eq_some (h : s.wakeUp i = some s') :
    ∃ l, s.threads[i]? = some (.suspended l) ∧ s' = s.move i (.arriving l) := by
  unfold wakeUp at h
  split at h
  next l ht => exact ⟨l, ht, (Option.some.inj h).symm⟩
  next => cases h

theorem again_eq_some {c : Call ι} (h : s.again i c = some s') :
    ∃ t, s.threads[i]? = some t ∧ t.lingers = true ∧ s' = s.move i c.inside := by
  unfold again at h
  split at h
  · cases h
  rename_i t ht
  split at h
  next hlingers => exact ⟨t, ht, hlingers, (Option.some.inj h).symm⟩
  next => cases h

theorem threads_move (hi : i < s.threads.size) (j : Nat) :
    (s.move i t).threads[j]? = if j = i then some t else s.threads[j]? := by
  simp only [move, Array.getElem?_setIfInBounds, hi, if_true, eq_comm]

theorem threads_join (hne : u ≠ t) : (s.join t).threads[j]? = some u ↔ s.threads[j]? = some u := by
  simp only [join, Array.getElem?_push]
  split
  next hj => simp [hj, hne.symm]
  next => rfl

variable [DecidableEq ι]

/-- **A thread goes from one place to the next**: when it can, and what else changes with that. -/
inductive Turn (s : Shared ι σ) (i : Nat) : Thread ι σ → Thread ι σ → Shared ι σ → Prop where
  | enter (l : ι) : s.holder = none → Turn s i (.arriving l) (.checking l) { s with holder := some i }
  | pass (l : ι) : s.flags l = true → Turn s i (.checking l) (.passing s.value) s
  | suspend (l : ι) : s.flags l = false → Turn s i (.checking l) (.suspended l) { s with holder := none }
  | leave (v : σ) : Turn s i (.passing v) (.passed v) { s with holder := none }
  | enterToOpen (l : ι) : s.holder = none → Turn s i (.opening l) (.setting l) { s with holder := some i }
  | refuse (l : ι) : s.flags l = true → Turn s i (.setting l) (.leaving false) s
  | set (l : ι) : s.flags l = false →
    Turn s i (.setting l) (.broadcasting l) { s with flags := fun k => if k = l then true else s.flags k }
  | broadcast (l : ι) :
    Turn s i (.broadcasting l) (.leaving true) { s with threads := s.threads.map (Thread.wake l) }
  | done (b : Bool) : Turn s i (.leaving b) (.opened b) { s with holder := none }
  | wakeUp (l : ι) : Turn s i (.suspended l) (.arriving l) s
  | again (t : Thread ι σ) (c : Call ι) : t.lingers = true → Turn s i t c.inside s

theorem step_eq_some (h : s.step i = some s') :
    ∃ t t' s₁, s.threads[i]? = some t ∧ Turn s i t t' s₁ ∧ s' = s₁.move i t' := by
  unfold step at h
  split at h
  · cases h
  rename_i t ht
  cases t with
  | arriving l =>
    obtain ⟨hfree, rfl⟩ := lock?_eq_some h
    exact ⟨_, _, _, ht, .enter l hfree, rfl⟩
  | checking l =>
    cases hflag : s.flags l with
    | true =>
      simp only [hflag, if_true, Option.some.injEq] at h
      exact ⟨_, _, _, ht, .pass l hflag, h.symm⟩
    | false =>
      simp only [hflag, Bool.false_eq_true, if_false, Option.some.injEq] at h
      exact ⟨_, _, _, ht, .suspend l hflag, h.symm⟩
  | suspended l => cases h
  | passing v => exact ⟨_, _, _, ht, .leave v, (Option.some.inj h).symm⟩
  | passed v => cases h
  | opening l =>
    obtain ⟨hfree, rfl⟩ := lock?_eq_some h
    exact ⟨_, _, _, ht, .enterToOpen l hfree, rfl⟩
  | setting l =>
    cases hflag : s.flags l with
    | true =>
      simp only [hflag, if_true, Option.some.injEq] at h
      exact ⟨_, _, _, ht, .refuse l hflag, h.symm⟩
    | false =>
      simp only [hflag, Bool.false_eq_true, if_false, Option.some.injEq] at h
      exact ⟨_, _, _, ht, .set l hflag, h.symm⟩
  | broadcasting l => exact ⟨_, _, _, ht, .broadcast l, (Option.some.inj h).symm⟩
  | leaving b => exact ⟨_, _, _, ht, .done b, (Option.some.inj h).symm⟩
  | opened b => cases h

namespace Turn

/-- Of the other threads, a turn moves only those that it wakes. -/
theorem threads_eq (h : Turn s i t t' s₁) :
    s₁.threads = s.threads ∨ ∃ l, t = .broadcasting l ∧ s₁.threads = s.threads.map (Thread.wake l) := by
  cases h with
  | broadcast l => exact .inr ⟨l, rfl, rfl⟩
  | _ => exact .inl rfl

theorem threads_move (h : Turn s i t t' s₁) (ht : s.threads[i]? = some t) (j : Nat) :
    (s₁.move i t').threads[j]? = if j = i then some t' else s₁.threads[j]? := by
  obtain ⟨hi, -⟩ := Array.getElem?_eq_some_iff.1 ht
  refine Shared.threads_move ?_ j
  rcases h.threads_eq with heq | ⟨l, -, heq⟩ <;> simpa [heq] using hi

end Turn

/-- **What a move does**: a thread comes, the value changes, or one thread goes to its next place. -/
theorem next?_cases (h : s.next? m = some s') :
    (∃ c : Call ι, s' = s.join c.outside ∧ s.returned? s' m = none) ∨
    (∃ v, s' = { s with value := v } ∧ s.returned? s' m = none) ∨
    ∃ i t t' s₁, s.threads[i]? = some t ∧ Turn s i t t' s₁ ∧ s' = s₁.move i t' ∧
      s.returned? s' m = t.returns? t' := by
  cases m with
  | join c => exact .inl ⟨c, (Option.some.inj h).symm, rfl⟩
  | store v => exact .inr (.inl ⟨v, (Option.some.inj h).symm, rfl⟩)
  | step i =>
    obtain ⟨t, t', s₁, ht, hturn, rfl⟩ := step_eq_some h
    refine .inr (.inr ⟨i, t, t', s₁, ht, hturn, rfl, ?_⟩)
    simp only [returned?, ht, hturn.threads_move ht, if_true, Option.bind_some]
  | wakeUp i =>
    obtain ⟨l, ht, rfl⟩ := wakeUp_eq_some h
    exact .inr (.inr ⟨i, _, _, s, ht, .wakeUp l, rfl, rfl⟩)
  | again i c =>
    obtain ⟨t, ht, hlingers, rfl⟩ := again_eq_some h
    refine .inr (.inr ⟨i, t, _, s, ht, .again t c hlingers, rfl, ?_⟩)
    exact (Thread.returns?_of_lingers hlingers _).symm

/-! ## The invariant -/

/-- **What holds after any moves**, where calls that opened latches have returned these results. -/
structure Sound (s : Shared ι σ) (results : List (ι × Bool)) : Prop where
  held : ∀ i, s.holder = some i ↔ ∃ t, s.threads[i]? = some t ∧ t.holds = true
  ringing : ∀ (i : Nat) (l : ι), s.threads[i]? = some (.broadcasting l) → s.flags l = true
  awake : ∀ (i : Nat) (l : ι), s.threads[i]? = some (.suspended l) → ¬ s.Ajar l
  told : ∀ l, (s.Ajar l ∧ ∃ n, resultsOf l results = true :: List.replicate n false) ∨
    (¬ s.Ajar l ∧ resultsOf l results = [])

namespace Turn

/-- The mutex goes with the thread: nobody else gets or loses it. -/
theorem holder_iff (h : Turn s i t t' s₁) (ht : s.holder = some i ↔ t.holds = true) :
    (s₁.holder = some i ↔ t'.holds = true) ∧ ∀ j ≠ i, (s₁.holder = some j ↔ s.holder = some j) := by
  cases h with
  | again t c hlingers =>
    refine ⟨?_, fun _ _ => Iff.rfl⟩
    rw [ht, Thread.holds_of_lingers hlingers, Thread.holds_inside]
  | _ => grind [Thread.holds]

/-- Whoever is inside after a turn is the thread that moved, or was at that place before: a turn wakes nobody inside. -/
theorem holding_iff (h : Turn s i t t' s₁) (ht : s.threads[i]? = some t) (hu : u.holds = true) :
    (s₁.move i t').threads[j]? = some u ↔ (j = i ∧ t' = u) ∨ (j ≠ i ∧ s.threads[j]? = some u) := by
  have hothers : s₁.threads[j]? = some u ↔ s.threads[j]? = some u := by
    rcases h.threads_eq with heq | ⟨l, -, heq⟩
    · rw [heq]
    · simp [heq, Thread.wake_eq_iff hu]
  rw [h.threads_move ht]
  by_cases hj : j = i
  · simp [hj]
  · simp [hj, hothers]

theorem suspended_iff (h : Turn s i t t' s₁) :
    s₁.threads[j]? = some (.suspended l) ↔ s.threads[j]? = some (.suspended l) ∧ t ≠ .broadcasting l := by
  cases h with
  | broadcast k => simp [Thread.wake_eq_suspended, eq_comm (a := k) (b := l)]
  | again t c hlingers => grind [Thread.lingers]
  | _ => simp

/-- A flag is set on the way to a broadcast, and never reset. -/
theorem flags_cases (h : Turn s i t t' s₁) (l : ι) :
    (s₁.flags l = s.flags l ∧ t' ≠ .broadcasting l) ∨
      (t' = .broadcasting l ∧ s.flags l = false ∧ s₁.flags l = true) := by
  cases h with
  | set k hclosed =>
    by_cases hkl : l = k
    · exact .inr ⟨by rw [hkl], by rw [hkl, hclosed], if_pos hkl⟩
    · exact .inl ⟨if_neg hkl, fun h => hkl (Thread.broadcasting.inj h).symm⟩
  | again t c hlingers =>
    cases c <;> exact .inl ⟨rfl, nofun⟩
  | _ => exact .inl ⟨rfl, nofun⟩

/-- A latch becomes ajar with its broadcast only, and no latch closes. -/
theorem ajar_iff (h : Turn s i t t' s₁) (ht : s.threads[i]? = some t) (hne : t ≠ .broadcasting l) :
    (s₁.move i t').Ajar l ↔ s.Ajar l := by
  rcases h.flags_cases l with ⟨hflag, hne'⟩ | ⟨rfl, hclosed, -⟩
  · have hsame : ∀ j : Nat, (s₁.move i t').threads[j]? = some (.broadcasting l) ↔
        s.threads[j]? = some (.broadcasting l) := by
      intro j
      rw [h.holding_iff ht rfl]
      by_cases hj : j = i
      · simp [hj, ht, hne, hne']
      · simp [hj]
    change s₁.flags l = true ∧ _ ↔ _
    simp only [Ajar, hflag, ne_eq, hsame]
  · constructor
    · intro hajar
      exact absurd (by simp [h.threads_move ht]) (hajar.2 i)
    · intro hajar
      exact absurd hajar.1 (by simp [hclosed])

theorem suspend_closed (h : Turn s i t (.suspended l) s₁) : s₁.flags l = false := by
  generalize ht' : Thread.suspended l = t' at h
  cases h with
  | suspend k hclosed => cases ht'; exact hclosed
  | again t c hlingers => cases c <;> cases ht'
  | _ => cases ht'

theorem results_broadcast (h : Turn s i (.broadcasting l) t' s₁) :
    resultsOf l ((Thread.broadcasting l).returns? t').toList = [true] := by
  cases h with
  | broadcast => simp [Thread.returns?, resultsOf]
  | again _ _ hlingers => cases hlingers

/-- But for its broadcast, what a latch is told is a refusal, and its flag was set then. -/
theorem results_of_ne (h : Turn s i t t' s₁) (hne : t ≠ .broadcasting l) :
    resultsOf l (t.returns? t').toList = [] ∨
      (t = .setting l ∧ s.flags l = true ∧ resultsOf l (t.returns? t').toList = [false]) := by
  cases h with
  | refuse k hflag =>
    by_cases hkl : k = l
    · subst hkl
      exact .inr ⟨rfl, hflag, by simp [Thread.returns?, resultsOf]⟩
    · exact .inl (by simp [Thread.returns?, resultsOf, hkl])
  | broadcast k =>
    have hkl : k ≠ l := fun h => hne (h ▸ rfl)
    exact .inl (by simp [Thread.returns?, resultsOf, hkl])
  | again t c hlingers => exact .inl (by rw [Thread.returns?_of_lingers hlingers]; rfl)
  | _ => exact .inl rfl

end Turn

namespace Sound

theorem start (value : σ) : (closed value : Shared ι σ).Sound [] where
  held i := by simp [closed]
  ringing i l h := by simp [closed] at h
  awake i l h := by simp [closed] at h
  told l := .inr ⟨by simp [closed, Ajar], rfl⟩

/-- At most one thread holds the mutex. -/
theorem alone (hs : s.Sound results) (ht : s.threads[i]? = some t) (hholds : t.holds = true)
    (hu : s.threads[j]? = some u) (huholds : u.holds = true) : j = i := by
  have hi := (hs.held i).2 ⟨t, ht, hholds⟩
  have hj := (hs.held j).2 ⟨u, hu, huholds⟩
  exact Option.some.inj (hj.symm.trans hi)

/-- **The broadcast leaves the latch ajar**: its flag is set, and nobody else is about to wake the wait set. -/
theorem ajar_of_broadcast (hs : s.Sound results) (ht : s.threads[i]? = some (.broadcasting l))
    (h : Turn s i (.broadcasting l) t' s₁) : (s₁.move i t').Ajar l := by
  have hne : t' ≠ .broadcasting l ∧ s₁.flags l = s.flags l := by
    rcases h.flags_cases l with ⟨hflag, hne⟩ | ⟨-, hclosed, -⟩
    · exact ⟨hne, hflag⟩
    · rw [hs.ringing i l ht] at hclosed
      cases hclosed
  refine ⟨hne.2.trans (hs.ringing i l ht), fun j hj => ?_⟩
  rcases (h.holding_iff ht rfl).1 hj with ⟨-, heq⟩ | ⟨hji, hbefore⟩
  · exact hne.1 heq
  · exact hji (hs.alone ht rfl hbefore rfl)

/-- The holder that finds the flag set knows that the broadcast is over: whoever set the flag kept the mutex for it. -/
theorem ajar_of_set (hs : s.Sound results) (ht : s.threads[i]? = some (.setting l)) (hflag : s.flags l = true) :
    s.Ajar l := by
  refine ⟨hflag, fun j hj => ?_⟩
  cases hs.alone ht rfl hj rfl
  rw [ht] at hj
  cases hj

theorem turn_told (hs : s.Sound results) (ht : s.threads[i]? = some t) (h : Turn s i t t' s₁) (l : ι) :
    ((s₁.move i t').Ajar l ∧
      ∃ n, resultsOf l (results ++ (t.returns? t').toList) = true :: List.replicate n false) ∨
    (¬ (s₁.move i t').Ajar l ∧ resultsOf l (results ++ (t.returns? t').toList) = []) := by
  rw [resultsOf_append]
  by_cases hbroadcast : t = .broadcasting l
  · subst hbroadcast
    -- nobody was told anything as long as the broadcast was to come
    rcases hs.told l with ⟨hajar, -⟩ | ⟨-, hnone⟩
    · exact absurd ht (hajar.2 i)
    · exact .inl ⟨hs.ajar_of_broadcast ht h, 0, by rw [hnone, h.results_broadcast]; rfl⟩
  · rw [h.ajar_iff ht hbroadcast]
    rcases h.results_of_ne hbroadcast with hres | ⟨rfl, hflag, hres⟩
    · rw [hres, List.append_nil]
      exact hs.told l
    · rcases hs.told l with ⟨hajar, n, htold⟩ | ⟨hclosed, -⟩
      · exact .inl ⟨hajar, n + 1, by rw [hres, htold, List.replicate_succ', List.cons_append]⟩
      · exact absurd (hs.ajar_of_set ht hflag) hclosed

/-- **A turn keeps the invariant.** -/
theorem turn (hs : s.Sound results) (ht : s.threads[i]? = some t) (h : Turn s i t t' s₁) :
    (s₁.move i t').Sound (results ++ (t.returns? t').toList) where
  held j := by
    have hi : s.holder = some i ↔ t.holds = true := by simp [hs.held, ht]
    obtain ⟨hself, hothers⟩ := h.holder_iff hi
    change s₁.holder = some j ↔ _
    by_cases hj : j = i
    · subst hj
      simp [h.threads_move ht, hself]
    · rw [hothers j hj, hs.held]
      refine exists_congr fun u => and_congr_left fun hu => ?_
      simp [h.holding_iff ht hu, hj]
  ringing j l hj := by
    rcases h.flags_cases l with ⟨hflag, hne⟩ | ⟨-, -, hset⟩
    · rcases (h.holding_iff ht rfl).1 hj with ⟨-, heq⟩ | ⟨-, hbefore⟩
      · exact absurd heq hne
      · exact hflag.trans (hs.ringing j l hbefore)
    · exact hset
  -- whoever joins the wait set found the flag not set, and the one broadcast leaves nobody in it
  awake j l hj hajar := by
    rw [h.threads_move ht] at hj
    by_cases hji : j = i
    · rw [if_pos hji] at hj
      cases hj
      exact absurd hajar.1 (by simp [move, h.suspend_closed])
    · rw [if_neg hji, h.suspended_iff] at hj
      exact hs.awake j l hj.1 ((h.ajar_iff ht hj.2).1 hajar)
  told := hs.turn_told ht h

/-- Only the places of those that hold the mutex or are in a wait set count. -/
theorem of_same_places (hs : s.Sound results) (hflags : s'.flags = s.flags) (hholder : s'.holder = s.holder)
    (hplaces : ∀ (j : Nat) (u : Thread ι σ), (u.holds = true ∨ ∃ l, u = .suspended l) →
      (s'.threads[j]? = some u ↔ s.threads[j]? = some u)) : s'.Sound results := by
  have hajar : ∀ l, s'.Ajar l ↔ s.Ajar l := by
    intro l
    simp only [Ajar, hflags, ne_eq, hplaces _ (.broadcasting l) (.inl rfl)]
  constructor
  · intro i
    rw [hholder, hs.held]
    exact exists_congr fun u => and_congr_left fun hu => (hplaces i u (.inl hu)).symm
  · intro i l h
    rw [hflags]
    exact hs.ringing i l ((hplaces i _ (.inl rfl)).1 h)
  · intro i l h
    rw [hajar]
    exact hs.awake i l ((hplaces i _ (.inr ⟨l, rfl⟩)).1 h)
  · intro l
    rw [hajar]
    exact hs.told l

theorem join (hs : s.Sound results) (c : Call ι) : (s.join c.outside).Sound results := by
  refine hs.of_same_places rfl rfl fun j u hu => threads_join ?_
  rintro rfl
  cases c <;> simp [Call.outside, Thread.holds] at hu

/-- **A move keeps the invariant.** -/
theorem next (hs : s.Sound results) (h : s.next? m = some s') :
    s'.Sound (results ++ (s.returned? s' m).toList) := by
  rcases next?_cases h with ⟨c, rfl, hres⟩ | ⟨v, rfl, hres⟩ | ⟨i, t, t', s₁, ht, hturn, rfl, hres⟩
  · rw [hres, Option.toList_none, List.append_nil]
    exact hs.join c
  · rw [hres, Option.toList_none, List.append_nil]
    exact hs.of_same_places rfl rfl fun _ _ _ => Iff.rfl
  · rw [hres]
    exact hs.turn ht hturn

/-- **And so do all the moves of a run.** -/
theorem play : ∀ {moves : List (Move ι σ)} {s : Shared ι σ} {before results : List (ι × Bool)}, s.Sound before →
    s.play moves = some (s', results) → s'.Sound (before ++ results)
  | [], s, before, results, hs, h => by
    cases h
    rwa [List.append_nil]
  | m :: rest, s, before, results, hs, h => by
    obtain ⟨s₁, hnext, hmap⟩ := Option.bind_eq_some_iff.1 h
    obtain ⟨⟨s₂, later⟩, hrest, heq⟩ := Option.map_eq_some_iff.1 hmap
    cases heq
    rw [← List.append_assoc]
    exact play (hs.next hnext) hrest

end Sound

/-! ## What becomes of those who wait -/

/-- Thread `i` takes one step and its wait is over: it holds the mutex and sees the value. -/
def GoesOn (s : Shared ι σ) (i : Nat) : Prop :=
  ∃ s', s.step i = some s' ∧ s'.threads[i]? = some (.passing s.value) ∧ s'.holder = some i

theorem goesOn_of_checking (ht : s.threads[i]? = some (.checking l)) (hflag : s.flags l = true)
    (hholder : s.holder = some i) : s.GoesOn i := by
  obtain ⟨hi, -⟩ := Array.getElem?_eq_some_iff.1 ht
  refine ⟨s.move i (.passing s.value), ?_, ?_, hholder⟩
  · simp only [step, ht, hflag, if_true]
  · rw [threads_move hi, if_pos rfl]

theorem goesOn_of_arriving (ht : s.threads[i]? = some (.arriving l)) (hflag : s.flags l = true)
    (hfree : s.holder = none) : ∃ s₁, s.step i = some s₁ ∧ s₁.GoesOn i := by
  obtain ⟨hi, -⟩ := Array.getElem?_eq_some_iff.1 ht
  let s₁ : Shared ι σ := { s with holder := some i }.move i (.checking l)
  have hstep : s.step i = some s₁ := by simp only [step, ht, lock?, hfree, s₁]
  have hchecking : s₁.threads[i]? = some (.checking l) := by
    rw [threads_move (by exact hi), if_pos rfl]
  exact ⟨s₁, hstep, goesOn_of_checking hchecking hflag rfl⟩

theorem flags_next (h : s.next? m = some s') (hflag : s.flags l = true) : s'.flags l = true := by
  rcases next?_cases h with ⟨c, rfl, -⟩ | ⟨v, rfl, -⟩ | ⟨i, t, t', s₁, -, hturn, rfl, -⟩
  · exact hflag
  · exact hflag
  · rcases hturn.flags_cases l with ⟨hsame, -⟩ | ⟨-, -, hset⟩
    · exact hsame.trans hflag
    · exact hset

theorem Turn.pass_open {v : σ} (h : Turn s i t (.passing v) s₁) :
    ∃ l, t = .checking l ∧ s₁.flags l = true ∧ s₁.value = v := by
  generalize ht' : Thread.passing v = t' at h
  cases h with
  | pass l hflag => cases ht'; exact ⟨l, rfl, hflag, rfl⟩
  | again t c hlingers => cases c <;> cases ht'
  | _ => cases ht'

/-- **A wait comes to its end only by a look at a flag that is set.** -/
theorem passing_next {v : σ} (h : s.next? m = some s') (hpassing : s'.threads[i]? = some (.passing v))
    (hnew : s.threads[i]? ≠ some (.passing v)) :
    ∃ l, s.threads[i]? = some (.checking l) ∧ s'.flags l = true ∧ s'.value = v := by
  rcases next?_cases h with ⟨c, rfl, -⟩ | ⟨w, rfl, -⟩ | ⟨j, t, t', s₁, ht, hturn, rfl, -⟩
  · exact absurd ((threads_join (by cases c <;> nofun)).1 hpassing) hnew
  · exact absurd hpassing hnew
  · rcases (hturn.holding_iff ht rfl).1 hpassing with ⟨rfl, rfl⟩ | ⟨-, hbefore⟩
    · obtain ⟨l, rfl, hflag, hvalue⟩ := hturn.pass_open
      exact ⟨l, ht, hflag, hvalue⟩
    · exact absurd hbefore hnew

/-- **No wake-up at a latch is lost.**  After any moves, with a latch whose flag is set and that nobody is in the middle
of opening, nobody is in its wait set, and whoever waits for it goes on with the mutex.  A wait returns with the mutex
held and the flag set, which stays set.  The first call that opens a latch returns `true`, and the others `false`. -/
theorem no_wakeup_is_lost (value : σ) (moves : List (Move ι σ)) (s : Shared ι σ) (results : List (ι × Bool))
    (h : (closed value).play moves = some (s, results)) :
    (∀ l, s.flags l = true → (∀ (i : Nat) (t : Thread ι σ), s.threads[i]? = some t → t.opens? ≠ some l) →
      (∀ i : Nat, s.threads[i]? ≠ some (.suspended l)) ∧
      (∀ i : Nat, s.threads[i]? = some (.checking l) → s.GoesOn i) ∧
      (∀ i : Nat, s.threads[i]? = some (.arriving l) → s.holder = none → ∃ s₁, s.step i = some s₁ ∧ s₁.GoesOn i) ∧
      ∃ n, resultsOf l results = true :: List.replicate n false) ∧
    (∀ i, s.holder = some i ↔ ∃ t, s.threads[i]? = some t ∧ t.holds = true) ∧
    (∀ (m : Move ι σ) (s' : Shared ι σ), s.next? m = some s' →
      (∀ l, s.flags l = true → s'.flags l = true) ∧
      ∀ (i : Nat) (v : σ), s'.threads[i]? = some (.passing v) → s.threads[i]? ≠ some (.passing v) →
        ∃ l, s.threads[i]? = some (.checking l) ∧ s'.flags l = true ∧ s'.holder = some i ∧ s'.value = v) ∧
    ∀ l, resultsOf l results = [] ∨ ∃ n, resultsOf l results = true :: List.replicate n false := by
  have hs : s.Sound results := (Sound.start value).play h
  refine ⟨fun l hflag hnobody => ?_, hs.held, fun m s' hnext => ⟨fun l => flags_next hnext, ?_⟩, fun l => ?_⟩
  · have hajar : s.Ajar l := ⟨hflag, fun i hi => hnobody i _ hi rfl⟩
    refine ⟨fun i hi => hs.awake i l hi hajar, fun i hi => ?_, fun i hi => goesOn_of_arriving hi hflag, ?_⟩
    · exact goesOn_of_checking hi hflag ((hs.held i).2 ⟨_, hi, rfl⟩)
    · rcases hs.told l with ⟨-, htold⟩ | ⟨hclosed, -⟩
      · exact htold
      · exact absurd hajar hclosed
  · intro i v hpassing hnew
    obtain ⟨l, hchecking, hflag, hvalue⟩ := passing_next hnext hpassing hnew
    have hholder := ((hs.next hnext).held i).2 ⟨_, hpassing, rfl⟩
    exact ⟨l, hchecking, hflag, hholder, hvalue⟩
  · rcases hs.told l with ⟨-, htold⟩ | ⟨-, hnone⟩
    · exact .inr htold
    · exact .inl hnone

/-- The two latches of a monitor. -/
inductive OfMonitor where
  | gate
  | completion
  deriving DecidableEq, Repr

/-- Two threads wait, one for each latch, and the first is woken once without a cause.  A third one opens the gate, and
then once more under the same hold of the mutex. -/
def gateRun : List (Move OfMonitor Nat) :=
  [.join (.awaits .gate), .step 0, .step 0, .join (.awaits .completion), .step 1, .step 1, .wakeUp 0, .step 0, .step 0,
    .join (.opens .gate), .store 7, .step 2, .step 2, .step 2, .again 2 (.opens .gate), .step 2, .step 2]

/-- The gate is open and its waiter was woken; the other latch is closed and its waiter is in the wait set. -/
def gateOpened : Shared OfMonitor Nat :=
  { flags := fun l => if l = .gate then true else false
    value := 7
    threads := #[.arriving .gate, .suspended .completion, .opened false] }

theorem no_wakeup_is_lost_at_two_latches :
    (closed 5).play gateRun = some (gateOpened, [(.gate, true), (.gate, false)]) ∧ gateOpened.flags .gate = true ∧
      (∀ i : Nat, gateOpened.threads[i]? ≠ some (.suspended .gate)) ∧
      gateOpened.threads[1]? = some (.suspended .completion) ∧
      ∃ s₁, gateOpened.step 0 = some s₁ ∧ s₁.GoesOn 0 := by
  have hplay : (closed 5).play gateRun = some (gateOpened, [(.gate, true), (.gate, false)]) := by
    cbv
  have hnobody : ∀ t ∈ gateOpened.threads, t.opens? ≠ some .gate := by
    decide
  obtain ⟨hwaitSet, -, harriving, -⟩ := (no_wakeup_is_lost 5 gateRun gateOpened _ hplay).1 .gate rfl
    fun _ t ht => hnobody t (Array.mem_of_getElem? ht)
  exact ⟨hplay, rfl, hwaitSet, rfl, harriving 0 rfl rfl⟩

end Shared
end Latch
end Handover
