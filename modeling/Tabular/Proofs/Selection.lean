import Tabular.Proofs.Record
import Tabular.Query

/-! # What a selection asks of a row

A row is looked at by itself, cell by cell: the cell of the condition comes
first, and those of the fields follow if the condition holds. The answer to the
row is decided by these cells alone. All other cells may hold anything.
-/

namespace Tabular

namespace Selection

def fieldNames (selection : Selection) (schema : Schema) : List String :=
  Plan.fieldNames schema selection.fields

/-- Every field is a column, and the literal of the condition is of the kind that
its column holds. -/
structure Fits (selection : Selection) (schema : Schema) : Prop where
  fields : ∀ name ∈ selection.fieldNames schema, name ∈ schema.columnNames
  condition : ∀ condition ∈ selection.condition, ∃ column ∈ schema.columns,
    column.name = condition.field ∧
      (column.type.isInteger = true ↔ condition.value.kind = .integer)

/-- Whether the row meets the condition, if there is one. -/
def meets (selection : Selection) (schema : Schema) (row : Bytes) : Outcome Bool :=
  match selection.condition with
  | none => .ok true
  | some condition => (Row.decodeColumn schema row condition.field).map condition.holds

/-- The row meets the condition. A cell that does not decode meets none. -/
def admits (selection : Selection) (schema : Schema) (row : Bytes) : Bool :=
  match selection.meets schema row with
  | .ok met => met
  | .error _ => false

def fieldCells (selection : Selection) (schema : Schema) (row : Bytes) : List (Outcome Value) :=
  (selection.fieldNames schema).map (Row.decodeColumn schema row)

/-- The cells that are looked at, in order. -/
def cells (selection : Selection) (schema : Schema) (row : Bytes) : List (Outcome Value) :=
  (selection.condition.map fun condition =>
      Row.decodeColumn schema row condition.field).toList ++
    if selection.admits schema row then selection.fieldCells schema row else []

/-- The record has the fields of the selection, each once, in the order of their
first occurrence, and in each of them the value of its column. -/
structure IsRecord (selection : Selection) (schema : Schema) (row : Bytes) (record : Record) :
    Prop where
  names : record.names = Fields.distinct (selection.fieldNames schema)
  values : ∀ entry ∈ record.fields, Row.decodeColumn schema row entry.1 = .ok entry.2

/-- The answer to one row: a record if the row meets the condition, else nothing. -/
def answerRow (selection : Selection) (schema : Schema) (row : Bytes) :
    Outcome (Option Record) := do
  if ← selection.meets schema row then
    return some (← Row.decode schema row (selection.fieldNames schema))
  else return none

end Selection

namespace Row

/-- The named columns of a row fill a record. -/
theorem decode_eq_fill (schema : Schema) (row : Bytes) (names : List String) :
    decode schema row names =
      Record.empty.fill (names.map fun name => (name, decodeColumn schema row name)) := by
  rw [decode, Record.fill, List.foldlM_map]

theorem decode_eq_error_iff {schema : Schema} {row : Bytes} {names : List String} {e : Error} :
    decode schema row names = .error e ↔
      firstError? (names.map (decodeColumn schema row)) = some e := by
  rw [decode_eq_fill, Record.fill_eq_error_iff, List.map_map]
  rfl

/-- Columns are read together if each of them is read. -/
theorem exists_decode {schema : Schema} {row : Bytes} {names : List String}
    (hcolumns : ∀ name ∈ names, ∃ value, decodeColumn schema row name = .ok value) :
    ∃ record, decode schema row names = .ok record := by
  cases hdecode : decode schema row names with
  | ok record => exact ⟨record, rfl⟩
  | error e =>
      obtain ⟨name, hname, hfails⟩ :=
        List.mem_map.mp (mem_of_firstError? (decode_eq_error_iff.mp hdecode))
      obtain ⟨value, hvalue⟩ := hcolumns name hname
      rw [hvalue] at hfails
      cases hfails

/-- A decoded record has the requested names, each with the value of its column. -/
theorem decode_eq_ok {schema : Schema} {row : Bytes} {names : List String} {record : Record}
    (hdecode : decode schema row names = .ok record) :
    record.names = Fields.distinct names ∧
      ∀ entry ∈ record.fields, decodeColumn schema row entry.1 = .ok entry.2 := by
  rw [decode_eq_fill] at hdecode
  constructor
  · rw [Record.names_of_fill hdecode, List.map_map]
    simp [Fields.distinct, Function.comp_def, Record.names, Record.empty]
  · intro entry hentry
    rcases Record.mem_fields_of_fill hdecode hentry with hnone | hnew
    · cases hnone
    · obtain ⟨name, -, hfield⟩ := List.mem_map.mp hnew
      rw [Prod.mk.injEq] at hfield
      rw [← hfield.1]
      exact hfield.2

end Row

namespace Selection

variable {selection : Selection} {schema : Schema} {row : Bytes}

theorem firstError?_fieldCells :
    firstError? (selection.fieldCells schema row) =
      firstError? [Row.decode schema row (selection.fieldNames schema)] := by
  cases hdecode : Row.decode schema row (selection.fieldNames schema) with
  | error e => exact Row.decode_eq_error_iff.mp hdecode
  | ok record =>
      cases hfirst : firstError? (selection.fieldCells schema row) with
      | none => rfl
      | some e =>
          rw [Row.decode_eq_error_iff.mpr hfirst] at hdecode
          cases hdecode

/-- The cell of the condition fails as the test of the condition does. -/
theorem firstError?_conditionCell :
    firstError? (selection.condition.map fun condition =>
      Row.decodeColumn schema row condition.field).toList =
        firstError? [selection.meets schema row] := by
  rw [meets]
  cases selection.condition with
  | none => rfl
  | some condition =>
      cases hcell : Row.decodeColumn schema row condition.field <;> simp [hcell, Except.map]

/-- The answer to a row fails with the first error among the cells looked at. -/
theorem firstError?_cells :
    firstError? (selection.cells schema row) = firstError? [selection.answerRow schema row] := by
  rw [cells, firstError?_append, firstError?_conditionCell, answerRow, admits]
  cases selection.meets schema row with
  | error e => rfl
  | ok met =>
      cases met with
      | false => rfl
      | true =>
          rw [if_pos rfl, firstError?_fieldCells]
          cases Row.decode schema row (selection.fieldNames schema) <;> rfl

/-- A row that is answered with nothing does not meet the condition. -/
theorem admits_eq_false_of_answerRow (hanswer : selection.answerRow schema row = .ok none) :
    selection.admits schema row = false := by
  rw [answerRow, Outcome.bind_eq_ok] at hanswer
  obtain ⟨met, hmet, hanswer⟩ := hanswer
  cases met with
  | false => rw [admits, hmet]
  | true =>
      rw [if_pos rfl, Outcome.bind_eq_ok] at hanswer
      obtain ⟨record, -, hrecord⟩ := hanswer
      cases hrecord

/-- A row that is answered with a record meets the condition, and the record is
the one of its fields. -/
theorem isRecord_of_answerRow {record : Record}
    (hanswer : selection.answerRow schema row = .ok (some record)) :
    selection.admits schema row = true ∧ selection.IsRecord schema row record := by
  rw [answerRow, Outcome.bind_eq_ok] at hanswer
  obtain ⟨met, hmet, hanswer⟩ := hanswer
  cases met with
  | false => cases hanswer
  | true =>
      rw [if_pos rfl, Outcome.bind_eq_ok] at hanswer
      obtain ⟨decoded, hdecode, hrecord⟩ := hanswer
      cases hrecord
      obtain ⟨hnames, hvalues⟩ := Row.decode_eq_ok hdecode
      exact ⟨by rw [admits, hmet], hnames, hvalues⟩

end Selection

end Tabular
