import Tabular.Cell
import Tabular.Record

/-! # Rows

A row is the cells of a schema's columns in order, without anything between
them. Writing a row takes a list of named values: every column needs one, no
other name may occur, and of several values for a column the first counts.
-/

namespace Tabular

def Schema.offsetOf (schema : Schema) (name : String) : Outcome Nat :=
  match schema.column? name with
  | some (_, offset) => .ok offset
  | none => .error (.unknownColumn name)

namespace Row

/-- The first value given for a name. -/
def valueFor? (values : List (String × Value)) (name : String) : Option Value :=
  (values.find? fun entry => entry.1 == name).map Prod.snd

def unknownName? (schema : Schema) (values : List (String × Value)) : Option String :=
  (values.map Prod.fst).find? fun name => !schema.columnNames.contains name

def cellFor (values : List (String × Value)) (column : Column) : Outcome Bytes :=
  match valueFor? values column.name with
  | some value => Cell.encode column.name column.type value
  | none => .error (.invalidArgument (.missingValue column.name))

/-- The row that named values make up. A name that no column has is reported
before anything else, then the first column whose value does not fit. -/
def encode (schema : Schema) (values : List (String × Value)) : Outcome Bytes :=
  match unknownName? schema values with
  | some name => .error (.unknownColumn name)
  | none => do
    let cells ← schema.columns.mapM (cellFor values)
    return cells.flatten

def decodeColumn (schema : Schema) (row : Bytes) (name : String) : Outcome Value :=
  match schema.column? name with
  | some (column, offset) => Cell.decode column.type (row.drop offset)
  | none => .error (.unknownColumn name)

/-- The values of the named columns of a row, in the order of the names. -/
def decode (schema : Schema) (row : Bytes) (names : List String) : Outcome Record :=
  names.foldlM
    (fun record name => return record.insert name (← decodeColumn schema row name)) .empty

end Row

end Tabular
