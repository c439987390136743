/-!
# Latch — flags that open once, behind one mutex

A latch is a flag in a state that one mutex guards, together with the threads that wait for the flag.  A thread that
waits takes the mutex and looks at the flag.  If the flag is set it goes on, else it gives up the mutex and joins the
wait set in one step; whenever it is woken it takes the mutex and looks again.  A thread that opens the latch holds the
mutex while it sets the flag and then wakes the whole wait set; on an open latch it does nothing.

`Shared` is the guarded state with any number of latches (`ι`) and of threads, `Shared.step` is one step of one thread,
and `Shared.wakeUp` is a wake-up without a cause.
-/
namespace Handover
namespace Latch

/-- Where a thread stands in its wait or in its opening of a latch.  It needs the mutex while it is `arriving` or
`opening`, and holds it while it is `checking`, `passing`, `setting`, `broadcasting` or `leaving`; only a thread that is
`suspended` is in a wait set.  A wait ends with the value that it saw, and an opening tells whether the latch was closed
before. -/
inductive Thread (ι σ : Type) where
  | arriving (l : ι)
  | checking (l : ι)
  | suspended (l : ι)
  | passing (seen : σ)
  | passed (seen : σ)
  | opening (l : ι)
  | setting (l : ι)
  | broadcasting (l : ι)
  | leaving (result : Bool)
  | opened (result : Bool)
  deriving DecidableEq, Repr, Inhabited

namespace Thread

variable {ι σ : Type}

/-- A thread whose call has returned and that holds nothing. -/
def isOver : Thread ι σ → Bool
  | passed _ => true
  | opened _ => true
  | _ => false

def seen? : Thread ι σ → Option σ
  | passed v => some v
  | _ => none

def result? : Thread ι σ → Option Bool
  | opened b => some b
  | _ => none

/-- A thread of the wait set of `l` leaves it and needs the mutex; any other stays. -/
def wake [DecidableEq ι] (l : ι) : Thread ι σ → Thread ι σ
  | suspended k => if k = l then arriving k else suspended k
  | t => t

end Thread

/-- A state behind one mutex, with latches on it and the threads that use them. -/
structure Shared (ι σ : Type) where
  flags : ι → Bool
  value : σ
  holder : Option Nat := none
  threads : Array (Thread ι σ) := #[]

namespace Shared

variable {ι σ : Type} [DecidableEq ι]

/-- All latches closed, nobody there. -/
def closed (value : σ) : Shared ι σ := { flags := fun _ => false, value }

def join (s : Shared ι σ) (t : Thread ι σ) : Shared ι σ := { s with threads := s.threads.push t }

def move (s : Shared ι σ) (i : Nat) (t : Thread ι σ) : Shared ι σ :=
  { s with threads := s.threads.setIfInBounds i t }

/-- Thread `i` takes the mutex, if nobody holds it, and goes on to `t`. -/
def lock? (s : Shared ι σ) (i : Nat) (t : Thread ι σ) : Option (Shared ι σ) :=
  match s.holder with
  | none => some ({ s with holder := some i }.move i t)
  | some _ => none

def unlock (s : Shared ι σ) (i : Nat) (t : Thread ι σ) : Shared ι σ :=
  { s with holder := none }.move i t

def step (s : Shared ι σ) (i : Nat) : Option (Shared ι σ) :=
  match s.threads[i]? with
  | none => none
  | some t => match t with
    | .arriving l => s.lock? i (.checking l)
    | .checking l => some (if s.flags l then s.move i (.passing s.value) else s.unlock i (.suspended l))
    | .suspended _ => none
    | .passing v => some (s.unlock i (.passed v))
    | .passed _ => none
    | .opening l => s.lock? i (.setting l)
    | .setting l =>
      some (if s.flags l then s.move i (.leaving false)
        else { s with flags := fun k => if k = l then true else s.flags k }.move i (.broadcasting l))
    | .broadcasting l => some ({ s with threads := s.threads.map (Thread.wake l) }.move i (.leaving true))
    | .leaving b => some (s.unlock i (.opened b))
    | .opened _ => none

/-- Thread `i` is woken without a cause, if it is in a wait set. -/
def wakeUp (s : Shared ι σ) (i : Nat) : Option (Shared ι σ) :=
  match s.threads[i]? with
  | some (.suspended l) => some (s.move i (.arriving l))
  | _ => none

/-- Every thread in turn takes a step if it can; `true` tells that one did. -/
def round (s : Shared ι σ) : Shared ι σ × Bool :=
  (List.range s.threads.size).foldl (fun (s, moved) i => match s.step i with
    | some s' => (s', true)
    | none => (s, moved)) (s, false)

def rounds : Nat → Shared ι σ → Shared ι σ
  | 0, s => s
  | n + 1, s => match s.round with
    | (s', true) => rounds n s'
    | (s', false) => s'

/-- Goes round until nobody can move: a thread takes at most eight steps without a wake-up that has no cause. -/
def settle (s : Shared ι σ) : Shared ι σ := rounds (8 * s.threads.size) s

end Shared
end Latch
end Handover
