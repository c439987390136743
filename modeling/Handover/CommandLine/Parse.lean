import Handover.CommandLine.Grammar
import Handover.Text.Numeral
import Handover.Text.Terminal
/-!
# Parse — what the arguments say

An option is spelled `--name value`, `--name=value`, `-n value`, `-nvalue` or `-n=value`; after `--` everything is an
operand.  Arguments are read from left to right.  A value that follows its option as an argument of its own, and an
operand, are looked at only when the next option, the next operand or the end of the arguments is reached, so an
argument that no rule fits is reported before them.  A message repeats what was given as plain text, without anything
that only a terminal obeys.
-/
namespace Handover
namespace CommandLine

inductive Value where
  | number (n : Nat)
  | path (p : String)
  deriving DecidableEq, Repr

inductive UsageError where
  | help (text : String)
  | unknown (argument : String)
  | noValue (shown : String)
  | invalid (value shown : String) (cause : Numeral.Error)
  | repeated (shown : String)
  | helpValue (value : String)
  | noOperand (shown : String)
  deriving DecidableEq, Repr

def UsageError.message : UsageError → String
  | help text => text
  | unknown argument => s!"error: unexpected argument '{Terminal.plainText argument}' found"
  | noValue shown => s!"error: a value is required for '{shown}' but none was supplied"
  | invalid value shown cause =>
    s!"error: invalid value '{Terminal.plainText value}' for '{shown}': {cause.message}"
  | repeated shown => s!"error: the argument '{shown}' cannot be used multiple times"
  | helpValue value =>
    s!"error: unexpected value '{Terminal.plainText value}' for '--help' found; no more were expected"
  | noOperand shown => s!"error: the following required arguments were not provided:\n  {shown}"

/-- Something that takes a value: an option or the operand. -/
structure Slot where
  key : String
  shown : String
  reads : Reading
  deriving DecidableEq, Repr

def Flag.slot (f : Flag) : Slot := ⟨f.long, f.shown, f.reads⟩

def Operand.slot (o : Operand) : Slot := ⟨o.name, o.shown, .path⟩

/-- The value that a text spells. -/
def Slot.read (s : Slot) (text : String) : Except UsageError Value :=
  match s.reads with
  | .number => match Numeral.read 10 text.toList with
    | .ok n => .ok (.number n)
    | .error cause => .error (.invalid text s.shown cause)
  | .path => if text.isEmpty then .error (.noValue s.shown) else .ok (.path text)

/-- What the arguments so far say. -/
structure Reader where
  /-- The values that have been looked at, by name. -/
  given : List (String × Value) := []
  /-- A value that has not been looked at, or for which an option still waits. -/
  pending : Option (Slot × Option String) := none
  onlyOperands : Bool := false
  operandSeen : Bool := false
  deriving DecidableEq, Repr, Inhabited

namespace Reader

def store (r : Reader) (slot : Slot) : Option String → Except UsageError Reader
  | none => .error (.noValue slot.shown)
  | some text =>
    if r.given.any (·.1 = slot.key) then .error (.repeated slot.shown)
    else do return { r with given := (slot.key, ← slot.read text) :: r.given }

/-- Looks at the value that has not been looked at. -/
def flush (r : Reader) : Except UsageError Reader :=
  match r.pending with
  | none => .ok r
  | some (slot, text) => { r with pending := none }.store slot text

/-- An option with its value, or one for whose value to wait. -/
def option (r : Reader) (slot : Slot) (text : Option String) : Except UsageError Reader := do
  let r ← r.flush
  match text with
  | some text => r.store slot (some text)
  | none => return { r with pending := some (slot, none) }

def askHelp (r : Reader) (g : Grammar) : Except UsageError Reader := do
  let _ ← r.flush
  throw (.help g.help)

/-- An argument that begins with two dashes. -/
def long (r : Reader) (g : Grammar) (body : String) : Except UsageError Reader :=
  let name := String.ofList (body.toList.takeWhile (· ≠ '='))
  let text := match body.toList.dropWhile (· ≠ '=') with
    | [] => none
    | _ :: rest => some (String.ofList rest)
  if name = "help" then match text with
    | some value => .error (.helpValue value)
    | none => r.askHelp g
  else match g.flags.find? (·.long = name) with
    | some f => r.option f.slot text
    | none => .error (.unknown ("--" ++ name))

/-- An argument that begins with one dash and a letter. -/
def short (r : Reader) (g : Grammar) (letter : Char) (rest : List Char) : Except UsageError Reader :=
  if letter = 'h' then r.askHelp g
  else match g.flags.find? (·.short = some letter) with
    | none => .error (.unknown (String.ofList ['-', letter]))
    | some f => r.option f.slot (match rest with
      | [] => none
      | '=' :: text => some (String.ofList text)
      | text => some (String.ofList text))

/-- An argument that is no option: the value that an option waits for, or an operand. -/
def plain (r : Reader) (g : Grammar) (argument : String) : Except UsageError Reader :=
  match r.onlyOperands, r.pending with
  | false, some (slot, none) => .ok { r with pending := some (slot, some argument) }
  | _, _ => match r.operandSeen, g.operand with
    | false, some o => do
      let r ← r.flush
      return { r with pending := some (o.slot, some argument), operandSeen := true }
    | _, _ => .error (.unknown argument)

def argument (r : Reader) (g : Grammar) (a : String) : Except UsageError Reader :=
  if r.onlyOperands then r.plain g a
  else match a.toList with
    | ['-', '-'] => .ok { r with onlyOperands := true }
    | '-' :: '-' :: body => r.long g (String.ofList body)
    | '-' :: letter :: rest => r.short g letter rest
    | _ => r.plain g a

def finish (r : Reader) (g : Grammar) : Except UsageError (List (String × Value)) := do
  let r ← r.flush
  match g.operand with
  | some o => if r.operandSeen then return r.given else throw (.noOperand o.shown)
  | none => return r.given

end Reader

/-- The values that were given, by name. -/
def Grammar.parse (g : Grammar) (arguments : List String) : Except UsageError (List (String × Value)) := do
  (← arguments.foldlM (fun r a => r.argument g a) ({} : Reader)).finish g

def numberOf? (given : List (String × Value)) (key : String) : Option Nat :=
  match given.lookup key with
  | some (.number n) => some n
  | _ => none

def pathOf? (given : List (String × Value)) (key : String) : Option String :=
  match given.lookup key with
  | some (.path p) => some p
  | _ => none

end CommandLine
end Handover
