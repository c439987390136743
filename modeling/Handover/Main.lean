import Handover.Program.Checker
import Handover.Program.Runner
/-!
# Main — the command line

`runner ARGUMENTS…` and `checker ARGUMENTS…`.
-/
namespace Handover
namespace Program

def FileError.ofSystem : IO.Error → FileError
  | .noFileOrDirectory .. => .notFound
  | .invalidArgument _ 36 _ => .tooLong
  | .inappropriateType _ 20 _ => .notFolder
  | .inappropriateType .. => .isFolder
  | .permissionDenied _ code details => .other s!"{details} (os error {code})"
  | e => .other (toString e)

/-- Does a job on the real files; reading a folder gives nothing. -/
def Job.perform : Job → IO Exit
  | .exit e => pure e
  | .read path go => do
    try
      return go (.ok (← IO.FS.readBinFile path).data.toList)
    catch e => match FileError.ofSystem e with
      | .isFolder => return go (.ok [])
      | e => return go (.error e)
  | .write path text go => do
    try
      IO.FS.writeFile path text
      return go (.ok ())
    catch e => return go (.error (.ofSystem e))

/-- Runs the program that the first argument names, with the other arguments. -/
def serve (arguments : List String) : IO UInt32 := do
  let job ← match arguments with
    | "runner" :: rest => pure (Runner.job rest)
    | "checker" :: rest => pure (Checker.job rest)
    | _ => do
      IO.eprintln "usage: runner ARGUMENTS | checker ARGUMENTS"
      return 2
  let exit ← job.perform
  IO.print exit.stdout
  IO.eprint exit.stderr
  return exit.code.toUInt32

end Program
end Handover

def main (arguments : List String) : IO UInt32 := Handover.Program.serve arguments
