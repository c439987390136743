import Handover.CommandLine.Parse
/-!
# Job — what a program wants from the outside

A program computes on its own until it has to read or to write a file; then it says so, and goes on with the answer.
In the end it says what to print and with which code to leave: zero if all went well, one after an error, two after bad
arguments, and 101 after a fault.
-/
namespace Handover
namespace Program

inductive FileError where
  | notFound
  | isFolder
  | notFolder
  | tooLong
  | nullCharacter
  | other (text : String)
  deriving DecidableEq, Repr

/-- The system's words for a file that is not to be had. -/
def FileError.message : FileError → String
  | notFound => "No such file or directory (os error 2)"
  | isFolder => "Is a directory (os error 21)"
  | notFolder => "Not a directory (os error 20)"
  | tooLong => "File name too long (os error 36)"
  | nullCharacter => "file name contained an unexpected NUL byte"
  | other text => text

structure Exit where
  code : Nat
  stdout : String := ""
  stderr : String := ""
  deriving DecidableEq, Repr

/-- What a program wants next. -/
inductive Job where
  | exit (e : Exit)
  | read (path : String) (go : Except FileError (List UInt8) → Exit)
  | write (path text : String) (go : Except FileError Unit → Exit)

def done (stdout : String) : Exit := { code := 0, stdout := stdout }

/-- An error with its causes, from the outermost in. -/
def failure : List String → Exit
  | [] => { code := 1, stderr := "Error: \n" }
  | [message] => { code := 1, stderr := s!"Error: {message}\n" }
  | [message, cause] => { code := 1, stderr := s!"Error: {message}\n\nCaused by:\n    {cause}\n" }
  | message :: causes =>
    let lines := causes.zipIdx.map fun (cause, i) => s!"    {i}: {cause}\n"
    { code := 1, stderr := s!"Error: {message}\n\nCaused by:\n" ++ String.join lines }

def misused : CommandLine.UsageError → Exit
  | .help text => done text
  | e => { code := 2, stderr := e.message ++ "\n\nFor more information, try '--help'.\n" }

def faulted : Exit := { code := 101 }

end Program
end Handover
