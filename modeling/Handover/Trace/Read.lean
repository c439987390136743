import Handover.Event
import Handover.Text.Numeral
import Handover.Text.Utf8
import Handover.Trace.Table
/-!
# Read — events from a trace

The first row of a trace names the columns, and each further row is an event.  Columns are found by their exact names
and in any order; others are passed over.  If the names are not UTF-8 the columns are those that the reader knows, by
position.  `read` answers with the events, or with the first thing that is wrong: row by row, and in a row first the
number of fields, then their encoding, then the fields from left to right, then columns that are missing.
-/
namespace Handover
namespace Trace

inductive Column where
  | seq
  | kind
  | producer
  | sequence
  | value
  | produced
  | consumed
  | occupancy
  deriving DecidableEq, Repr, Inhabited

namespace Column

def name : Column → String
  | seq => "seq"
  | kind => "kind"
  | producer => "producer"
  | sequence => "sequence"
  | value => "value"
  | produced => "produced"
  | consumed => "consumed"
  | occupancy => "occupancy"

/-- The columns that the reader knows, in its order. -/
def all : List Column := [seq, kind, producer, sequence, value, produced, consumed, occupancy]

def ofName? (name : String) : Option Column := all.find? (·.name = name)

@[simp] theorem ofName?_name (c : Column) : ofName? c.name = some c := by
  cases c <;> rfl

end Column

inductive RowError where
  | numeral (index : Nat) (cause : Numeral.Error)
  | unknownKind (name : String)
  | duplicate (column : Column)
  | missing (column : Column)
  | tooFew (found : Nat)
  deriving DecidableEq, Repr

def RowError.message : RowError → String
  | numeral index cause => s!"field {index}: {cause.message}"
  | unknownKind name =>
    "unknown variant `" ++ name ++ "`, expected one of " ++
      ", ".intercalate (Kind.all.map fun k => "`" ++ k.name ++ "`")
  | duplicate column => "duplicate field `" ++ column.name ++ "`"
  | missing column => "missing field `" ++ column.name ++ "`"
  | tooFew found => s!"invalid length {found}, expected struct Record with {Column.all.length} elements"

/-- What is wrong with a trace: the number of a row, where it began, and the cause. -/
inductive Error where
  /-- The row has another number of fields than the first one. -/
  | unequal (row : Nat) (origin : Table.Position) (found expected : Nat)
  /-- A field is not UTF-8 after so many bytes. -/
  | encoding (row : Nat) (origin : Table.Position) (field valid : Nat)
  | content (row : Nat) (origin : Table.Position) (cause : RowError)
  deriving DecidableEq, Repr

def Error.message : Error → String
  | unequal row at_ found expected =>
    s!"CSV error: record {row} (line: {at_.line}, byte: {at_.byte}): " ++
      s!"found record with {found} fields, but the previous record has {expected} fields"
  | encoding row at_ field valid =>
    s!"CSV parse error: record {row} (line {at_.line}, field: {field}, byte: {at_.byte}): " ++
      s!"invalid utf-8: invalid UTF-8 in field {field} near byte index {valid}"
  | content row at_ cause =>
    s!"CSV deserialize error: record {row} (line: {at_.line}, byte: {at_.byte}): {cause.message}"

/-- The number that a field spells, in decimal, or in base sixteen after `0x`. -/
def readNumber : List Char → Except Numeral.Error Nat
  | '0' :: 'x' :: digits => Numeral.read 16 digits
  | digits => Numeral.read 10 digits

structure Draft where
  seq : Option Nat := none
  kind : Option Kind := none
  producer : Option (Option Nat) := none
  sequence : Option (Option Nat) := none
  value : Option (Option Nat) := none
  produced : Option Nat := none
  consumed : Option Nat := none
  occupancy : Option Nat := none
  deriving DecidableEq, Repr, Inhabited

namespace Draft

def has (d : Draft) : Column → Bool
  | .seq => d.seq.isSome
  | .kind => d.kind.isSome
  | .producer => d.producer.isSome
  | .sequence => d.sequence.isSome
  | .value => d.value.isSome
  | .produced => d.produced.isSome
  | .consumed => d.consumed.isSome
  | .occupancy => d.occupancy.isSome

def number (index : Nat) (text : List Char) : Except RowError Nat :=
  (readNumber text).mapError (.numeral index)

/-- The number in the field at `index`, unless the field is empty. -/
def number? (index : Nat) (text : List Char) : Except RowError (Option Nat) :=
  if text.isEmpty then .ok none else some <$> number index text

def readKind (text : List Char) : Except RowError Kind :=
  match Kind.ofName? (String.ofList text) with
  | some k => .ok k
  | none => .error (.unknownKind (String.ofList text))

/-- Reads the field at `index` as this column, which must not have been read before. -/
def put (d : Draft) (column : Column) (index : Nat) (text : List Char) : Except RowError Draft :=
  if d.has column then .error (.duplicate column)
  else match column with
    | .seq => return { d with seq := ← number index text }
    | .kind => return { d with kind := ← readKind text }
    | .producer => return { d with producer := some (← number? index text) }
    | .sequence => return { d with sequence := some (← number? index text) }
    | .value => return { d with value := some (← number? index text) }
    | .produced => return { d with produced := ← number index text }
    | .consumed => return { d with consumed := ← number index text }
    | .occupancy => return { d with occupancy := ← number index text }

def need {α : Type} (column : Column) : Option α → Except RowError α
  | some a => .ok a
  | none => .error (.missing column)

/-- The event, if every part is there that must be. -/
def finish (d : Draft) : Except RowError Event := do
  return {
    seq := ← need .seq d.seq
    kind := ← need .kind d.kind
    producer := d.producer.join
    sequence := d.sequence.join
    value := d.value.join
    produced := ← need .produced d.produced
    consumed := ← need .consumed d.consumed
    occupancy := ← need .occupancy d.occupancy }

/-- Reads the fields from `index` on under their columns' names. -/
def putNamed (d : Draft) (index : Nat) : List (String × List Char) → Except RowError Draft
  | [] => .ok d
  | (name, text) :: rest => match Column.ofName? name with
    | none => putNamed d (index + 1) rest
    | some column => do putNamed (← d.put column index text) (index + 1) rest

/-- Reads the fields from `index` on as these columns. -/
def putInOrder (d : Draft) (index : Nat) : List Column → List (List Char) → Except RowError Draft
  | [], _ => .ok d
  | _ :: _, [] => .error (.tooFew index)
  | column :: columns, text :: rest => do putInOrder (← d.put column index text) (index + 1) columns rest

end Draft

/-- The event that the fields make, under these names or by position. -/
def readFields (names : Option (List String)) (fields : List (List Char)) : Except RowError Event :=
  match names with
  | some names => do Draft.finish (← Draft.putNamed {} 0 (names.zip fields))
  | none => do Draft.finish (← Draft.putInOrder {} 0 Column.all fields)

/-- The fields as characters, or the first that is not UTF-8 and how many of its bytes are. -/
def decodeFields (index : Nat) : List (List UInt8) → Except (Nat × Nat) (List (List Char))
  | [] => .ok []
  | field :: rest => match Utf8.decode field with
    | .error valid => .error (index, valid)
    | .ok text => do return text :: (← decodeFields (index + 1) rest)

/-- The event in a row of a trace whose first row has `width` fields and perhaps these names. -/
def readRow (names : Option (List String)) (width number : Nat) (row : Table.Row) : Except Error Event :=
  if row.fields.length ≠ width then .error (.unequal number row.origin row.fields.length width)
  else match decodeFields 0 row.fields with
    | .error (field, valid) => .error (.encoding number row.origin field valid)
    | .ok fields => (readFields names fields).mapError (.content number row.origin)

/-- The events in the rows from number `number` on. -/
def readRows (names : Option (List String)) (width number : Nat) : List Table.Row → Except Error (List Event)
  | [] => .ok []
  | row :: rest => do
    let event ← readRow names width number row
    return event :: (← readRows names width (number + 1) rest)

/-- The names in the first row, if they are UTF-8. -/
def columnNames (row : Table.Row) : Option (List String) :=
  (decodeFields 0 row.fields).toOption.map (·.map String.ofList)

/-- The events of a trace. -/
def read (text : List UInt8) : Except Error (List Event) :=
  match Table.rows text with
  | [] => .ok []
  | header :: rest => readRows (columnNames header) header.fields.length 1 rest

end Trace
end Handover
