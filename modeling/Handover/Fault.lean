import Handover.Phase
/-!
# Fault — what stops an operation half way

A fault is a broken promise inside the program: arithmetic that leaves 64 bits, a buffer used against its contract, a
counter posted past its limit, a run whose counts do not add up.  It is not an error that a caller may expect and
handle: whoever meets one stops where it stands, and what it had changed until then stays changed.
-/
namespace Handover

inductive Fault where
  | sumOverflow
  | differenceOverflow
  | productOverflow
  | noCapacity
  | bufferFull
  | bufferEmpty
  | cellTaken
  | cellOutOfRange (index size : Nat)
  | lengthUnderflow
  | slotOverflow
  | mutexHeld
  | phaseOver
  | phaseSkipped (current expected requested : Phase)
  | overconsumed (consumed produced : Nat)
  | incomplete (consumed total : Nat)
  | completedTwice
  | holderFailed
  /-- An agent whose end nobody waited for had itself stopped on a fault. -/
  | unattended
  deriving DecidableEq, Repr, Inhabited

def Fault.message : Fault → String
  | sumOverflow => "attempt to add with overflow"
  | differenceOverflow => "attempt to subtract with overflow"
  | productOverflow => "attempt to multiply with overflow"
  | noCapacity => "buffer capacity must be positive"
  | bufferFull => "insert into a full buffer"
  | bufferEmpty => "remove from an empty buffer"
  | cellTaken => "cell already holds an item"
  | cellOutOfRange index size => s!"index out of bounds: the len is {size} but the index is {index}"
  | lengthUnderflow => "attempt to subtract with overflow"
  | slotOverflow => "failed to post semaphore"
  | mutexHeld => "failed to destroy mutex"
  | phaseOver => "no transition out of Complete"
  | phaseSkipped current expected requested =>
    "assertion `left == right` failed: illegal phase transition from " ++ current.name ++
      "\n  left: " ++ expected.name ++ "\n right: " ++ requested.name
  | overconsumed consumed produced => s!"consumed {consumed} items but only {produced} were produced"
  | incomplete consumed total => s!"assertion `left == right` failed\n  left: {consumed}\n right: {total}"
  | completedTwice => "completion signalled twice"
  | holderFailed => "holder failed"
  | unattended => "a scoped thread panicked"

end Handover
