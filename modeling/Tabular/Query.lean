import Tabular.Chunk
import Tabular.Config
import Tabular.Row
import Tabular.Statement

/-! # Query plans

Before a table is opened, a selection is checked against the schema of the
table: every field has to be a column, and the literal of the condition has to
be of the kind that its column holds. What remains to be done is a plan, and
scanning a chunk of the table by it yields the result. A row is looked at in
two steps: first the cell of the condition, and the fields of the result only
if the condition holds.
-/

namespace Tabular

/-- The rows that a selection returns. -/
structure QueryResult where
  columns : List String
  rows : List Record
  /-- The table goes on behind the chunk that was read. -/
  truncated : Bool
  /-- If so, where the first row starts that was not looked at. -/
  resumeOffset : Option Nat
  deriving DecidableEq

namespace QueryResult

/-- The result of no statement at all. -/
def empty : QueryResult := ⟨[], [], false, none⟩

def valueRows (result : QueryResult) : List (List Value) :=
  result.rows.map Record.values

end QueryResult

/-- A column and its place in a row. -/
structure BoundColumn where
  name : String
  type : ColumnType
  offset : Nat
  deriving DecidableEq

namespace BoundColumn

def ofName (schema : Schema) (name : String) : Outcome BoundColumn :=
  match schema.column? name with
  | some (column, offset) => .ok ⟨column.name, column.type, offset⟩
  | none => .error (.unknownColumn name)

def read (column : BoundColumn) (row : Bytes) : Outcome Value :=
  Cell.decode column.type (row.drop column.offset)

/-- Integers compare with integers and dates only, texts with texts. -/
def checkComparable (column : BoundColumn) (value : Value) : Outcome Unit :=
  if column.type.isInteger = (value.kind == .integer) then .ok ()
  else .error (.typeMismatch column.name column.type value.kind)

end BoundColumn

/-- A condition and the column that it is about. -/
structure Filter where
  condition : Condition
  column : BoundColumn
  deriving DecidableEq

def Filter.ofCondition (schema : Schema) (condition : Condition) : Outcome Filter := do
  let column ← BoundColumn.ofName schema condition.field
  column.checkComparable condition.value
  return ⟨condition, column⟩

def Filter.admits (filter : Option Filter) (row : Bytes) : Outcome Bool :=
  match filter with
  | none => .ok true
  | some filter => return filter.condition.holds (← filter.column.read row)

/-- A selection that has been checked against a schema. -/
structure Plan where
  projection : List BoundColumn
  filter : Option Filter
  rowSize : Nat
  deriving DecidableEq

namespace Plan

def fieldNames (schema : Schema) : Fields → List String
  | .all => schema.columnNames
  | .named names => names

def filterOf (schema : Schema) : Option Condition → Outcome (Option Filter)
  | none => .ok none
  | some condition => return some (← Filter.ofCondition schema condition)

/-- Checks a selection: the chunk size first, then the fields, then the
condition. -/
def ofSelection (chunkSize : Nat) (schema : Schema) (selection : Selection) : Outcome Plan := do
  checkChunkSize chunkSize
  let projection ← (fieldNames schema selection.fields).mapM (BoundColumn.ofName schema)
  let filter ← filterOf schema selection.condition
  return ⟨projection, filter, schema.rowSize⟩

def project (plan : Plan) (row : Bytes) : Outcome Record :=
  plan.projection.foldlM
    (fun record column => return record.insert column.name (← column.read row)) .empty

def scanRow (plan : Plan) (row : Bytes) : Outcome (Option Record) := do
  if ← Filter.admits plan.filter row then return some (← plan.project row) else return none

/-- Looks at a number of rows from an index on, behind those that were looked at
before with the records found in reverse. Where no row is found it stops. -/
def scanRows (plan : Plan) (row? : Nat → Option Bytes) :
    Nat → Nat → List Record → Outcome (List Record)
  | 0, _, found => .ok found.reverse
  | count + 1, index, found =>
    match row? index with
    | none => .ok found.reverse
    | some row =>
      match plan.scanRow row with
      | .error e => .error e
      | .ok none => scanRows plan row? count (index + 1) found
      | .ok (some record) => scanRows plan row? count (index + 1) (record :: found)

/-- The result of the whole rows of a chunk. The first cell that cannot be
decoded fails the scan. Rows are looked up in an array of the data, which is made once. -/
def scan (plan : Plan) (chunk : Chunk) : Outcome QueryResult := do
  let count := chunk.wholeRows plan.rowSize
  let data := chunk.data.toArray
  let row? := fun index => Chunk.rowOf? data chunk.validBytes index plan.rowSize
  let rows ← plan.scanRows row? count 0 []
  return {
    columns := plan.projection.map BoundColumn.name
    rows := rows
    truncated := chunk.isTruncated
    resumeOffset := chunk.nextOffset.map fun _ =>
      Word.addWrapping chunk.offset (count * plan.rowSize) }

end Plan

end Tabular
