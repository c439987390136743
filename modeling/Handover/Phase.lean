/-!
# Phase — how far a run has come

A run goes through three phases and never turns back: first there are items left to produce, then only items left to
consume, then nothing.  Each move goes to the very next phase (`Phase.next?`).
-/
namespace Handover

inductive Phase where
  | running
  | draining
  | complete
  deriving DecidableEq, Repr, Inhabited

namespace Phase

def name : Phase → String
  | running => "Running"
  | draining => "Draining"
  | complete => "Complete"

def next? : Phase → Option Phase
  | running => some draining
  | draining => some complete
  | complete => none

end Phase
end Handover
