import Handover.Program.Job
/-!
# Folder — a working folder in memory

A folder with files in it and no further folders, and how a job is done in it.  A path is followed step by step: `.`
stays in the folder, a file has nothing below it, and a name that is not there can be made only as the last step.
Reading a folder gives nothing.  Outside of the folder nothing is known to be but other folders above it and the null
device, which is empty and takes everything.  A path has at most `pathLimit` octets and a name in it `nameLimit`; a name
that is too long is found to be so only when the path is followed up to it.
-/
namespace Handover
namespace Program

/-- A working folder: its files by name. -/
structure Folder where
  files : List (String × List UInt8) := []
  deriving DecidableEq, Repr

namespace Folder

def file? (f : Folder) (name : String) : Option (List UInt8) := f.files.lookup name

/-- The folder with this file in it, in place of one with the same name. -/
def put (f : Folder) (name : String) (content : List UInt8) : Folder where
  files := (name, content) :: f.files.filter (·.1 ≠ name)

/-- The octets of a name at most. -/
def nameLimit : Nat := 255

/-- The octets of a path at most. -/
def pathLimit : Nat := 4095

def nullDevice : String := "/dev/null"

inductive Target where
  | folder
  | file (name : String)
  | slashed (name : String)
  | null
  | nowhere (cause : FileError)
  deriving DecidableEq, Repr

/-- The cause, unless the name is too long. -/
def unlessTooLong (name : String) (cause : FileError) : FileError :=
  if nameLimit < name.utf8ByteSize then .tooLong else cause

/-- What is missing at a name on the way: a folder in place of a file, or all of it. -/
def missing (f : Folder) (name : String) : FileError :=
  unlessTooLong name (if (f.file? name).isSome then .notFolder else .notFound)

/-- Follows the steps of a path outside of the folder. -/
def followOutside : List String → Target
  | [] => .folder
  | name :: rest =>
    if name = "" ∨ name = "." ∨ name = ".." then followOutside rest else .nowhere (unlessTooLong name .notFound)

def follow (f : Folder) : List String → Target
  | [] => .folder
  | name :: rest =>
    if name = "" ∨ name = "." then f.follow rest
    else if name = ".." then followOutside rest
    else if rest.isEmpty then if nameLimit < name.utf8ByteSize then .nowhere .tooLong else .file name
    else if rest.all (· = "") then .slashed name
    else .nowhere (f.missing name)

def resolve (f : Folder) (path : String) : Target :=
  if path.contains '\x00' then .nowhere .nullCharacter
  else if path.isEmpty then .nowhere .notFound
  else if pathLimit < path.utf8ByteSize then .nowhere .tooLong
  else if path = nullDevice then .null
  else if path.startsWith "/" then followOutside (path.splitOn "/")
  else f.follow (path.splitOn "/")

def fileAt? (f : Folder) (path : String) : Option (List UInt8) :=
  match f.resolve path with
  | .file name => f.file? name
  | _ => none

def read (f : Folder) (path : String) : Except FileError (List UInt8) :=
  match f.resolve path with
  | .folder => .ok []
  | .null => .ok []
  | .file name => match f.file? name with
    | some content => .ok content
    | none => .error .notFound
  | .slashed name => .error (f.missing name)
  | .nowhere e => .error e

def write (f : Folder) (path text : String) : Except FileError Folder :=
  match f.resolve path with
  | .folder => .error .isFolder
  | .slashed _ => .error .isFolder
  | .null => .ok f
  | .file name => .ok (f.put name text.toUTF8.data.toList)
  | .nowhere e => .error e

/-- Does a job: how the program leaves, and the folder then. -/
def perform (f : Folder) : Job → Exit × Folder
  | .exit e => (e, f)
  | .read path go => (go (f.read path), f)
  | .write path text go => match f.write path text with
    | .ok f' => (go (.ok ()), f')
    | .error e => (go (.error e), f)

end Folder
end Program
end Handover
