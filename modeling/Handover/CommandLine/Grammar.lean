/-!
# Grammar — which arguments a program takes

A program takes options, each of which has a value, and perhaps one operand.  The help text is made from the grammar.
-/
namespace Handover
namespace CommandLine

inductive Reading where
  | number
  | path
  deriving DecidableEq, Repr

structure Flag where
  long : String
  short : Option Char := none
  reads : Reading := .number
  about : String
  /-- The value that counts if none is given. -/
  preset : Option Nat := none
  deriving DecidableEq, Repr

structure Operand where
  name : String
  about : String
  deriving DecidableEq, Repr

structure Grammar where
  program : String
  about : String
  operand : Option Operand := none
  flags : List Flag
  deriving DecidableEq, Repr

namespace Flag

/-- What the value is called: the name in capitals. -/
def valueName (f : Flag) : String := f.long.map fun c => if c = '-' then '_' else c.toUpper

/-- The option as messages spell it. -/
def shown (f : Flag) : String := s!"--{f.long} <{f.valueName}>"

/-- The option as the help text spells it. -/
def spelling (f : Flag) : String :=
  (match f.short with
    | some c => s!"-{c}, "
    | none => "    ") ++ f.shown

/-- What the option is for, with the value that counts if none is given. -/
def explanation (f : Flag) : String :=
  f.about ++ match f.preset with
    | some n => s!" [default: {n}]"
    | none => ""

end Flag

def Operand.shown (o : Operand) : String := s!"<{o.name}>"

namespace Grammar

/-- A column of spellings and one of explanations. -/
def table (lines : List (String × String)) : String :=
  let width := (lines.map (·.1.length)).foldl max 0
  String.join (lines.map fun (left, right) =>
    "  " ++ left ++ String.ofList (List.replicate (width - left.length) ' ') ++ "  " ++ right ++ "\n")

def help (g : Grammar) : String :=
  let usage := s!"{g.about}\n\nUsage: {g.program} [OPTIONS]"
  let operand := match g.operand with
    | some o => s!" {o.shown}\n\nArguments:\n" ++ table [(o.shown, o.about)]
    | none => "\n"
  usage ++ operand ++ "\nOptions:\n" ++
    table (g.flags.map (fun f => (f.spelling, f.explanation)) ++ [("-h, --help", "Print help")])

end Grammar
end CommandLine
end Handover
