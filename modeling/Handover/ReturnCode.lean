/-!
# ReturnCode — what a primitive reports

A primitive reports success by the code zero.  Any other code is an error that names the operation and the code.
-/
namespace Handover

/-- An operation that reported a code other than zero. -/
structure CodeError where
  operation : String
  code : Int
  deriving DecidableEq, Repr

def CodeError.message (e : CodeError) : String :=
  s!"Operation {e.operation} failed: Code {e.code}"

/-- Accepts the code zero and nothing else. -/
def checkCode (operation : String) (code : Int) : Except CodeError Unit :=
  if code = 0 then .ok () else .error ⟨operation, code⟩

end Handover
