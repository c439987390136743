import Handover.Event
import Handover.Text.Numeral
/-!
# Write — a trace of events

A trace has a row with the columns' names and then a row for each event, every row ended by a line feed.  Numbers are
decimal, a part of an item that is not there is an empty field, and without any event there is no row at all.  The names
are the writer's own: whoever reads a trace has to know them too.
-/
namespace Handover
namespace Trace

def kindName : Kind → String
  | .produced => "Produced"
  | .consumed => "Consumed"
  | .completed => "Completed"

/-- The columns in the order in which they are written, each with its name and the text of an event under it. -/
def columns : List (String × (Event → List Char)) :=
  [("seq", fun e => Numeral.write e.seq),
    ("kind", fun e => (kindName e.kind).toList),
    ("producer", fun e => e.producer.elim [] Numeral.write),
    ("sequence", fun e => e.sequence.elim [] Numeral.write),
    ("value", fun e => e.value.elim [] Numeral.write),
    ("produced", fun e => Numeral.write e.produced),
    ("consumed", fun e => Numeral.write e.consumed),
    ("occupancy", fun e => Numeral.write e.occupancy)]

/-- A row with these fields. -/
def line (fields : List (List Char)) : List Char := [','].intercalate fields ++ ['\n']

def header : List Char := line (columns.map fun (name, _) => name.toList)

def row (e : Event) : List Char := line (columns.map fun (_, text) => text e)

/-- The trace of some events. -/
def write : List Event → String
  | [] => ""
  | events => String.ofList (header ++ events.flatMap row)

/-- The bytes of a text in a file. -/
def bytes (text : String) : List UInt8 := text.toUTF8.data.toList

end Trace
end Handover
