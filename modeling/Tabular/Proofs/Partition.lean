import Tabular.Proofs.FirstChunk
import Tabular.Proofs.Inverse

/-! # Comparisons that partition a table

Of the rows of a table each is less than a literal, equal to it or greater, if the literal is of
the kind that the column holds. So the selections that differ only in the comparison have
results that are parts of the rows without a condition: no row is in two of the three, and none
is left out by all of them.
-/

namespace Tabular

/-- Of less, equal and greater one holds of an order, and not equal holds if equal does not. -/
theorem Operator.partition (order : Ordering) :
    (∃! operator, operator ∈ [less, equal, greater] ∧ operator.holds order = true) ∧
      (notEqual.holds order = true ↔ less.holds order = true ∨ greater.holds order = true) := by
  cases order with
  | lt =>
      refine ⟨⟨less, by decide, ?_⟩, by decide⟩
      rintro (_ | _ | _ | _) <;> decide
  | eq =>
      refine ⟨⟨equal, by decide, ?_⟩, by decide⟩
      rintro (_ | _ | _ | _) <;> decide
  | gt =>
      refine ⟨⟨greater, by decide, ?_⟩, by decide⟩
      rintro (_ | _ | _ | _) <;> decide

/-- The items at those positions where the operator holds of the order. -/
def Operator.keep {α : Type} (operator : Operator) (orders : List Ordering) (items : List α) :
    List α :=
  ((orders.zip items).filter fun entry => operator.holds entry.1).map Prod.snd

theorem Operator.keep_cons {α : Type} (operator : Operator) (order : Ordering)
    (orders : List Ordering) (item : α) (items : List α) :
    operator.keep (order :: orders) (item :: items) =
      if operator.holds order then item :: operator.keep orders items
      else operator.keep orders items := by
  rw [keep, List.zip_cons_cons, List.filter_cons]
  split <;> rfl

/-- Values of one kind compare. -/
theorem Value.exists_compare? {value other : Value}
    (hkind : value.kind = .integer ↔ other.kind = .integer) :
    ∃ order, value.compare? other = some order := by
  cases value with
  | integer n =>
      cases other with
      | integer m => exact ⟨_, rfl⟩
      | text t => cases hkind.mp rfl
  | text s =>
      cases other with
      | integer m => cases hkind.mpr rfl
      | text t => exact ⟨_, rfl⟩

/-- The values of a column are of the kind that its type says. -/
theorem Cell.kind_of_decode {type : ColumnType} {bytes : Bytes} {value : Value}
    (hread : decode type bytes = .ok value) :
    type.isInteger = true ↔ value.kind = .integer := by
  obtain ⟨-, ⟨htype, rfl⟩ | ⟨width, s, rfl, rfl, -⟩⟩ := decode_eq_ok hread
  · exact iff_of_true htype rfl
  · exact iff_of_false nofun nofun

namespace Row

variable {schema : Schema} {row : Bytes} {rows : List Bytes} {literal : Value} {column : Column}
  {field : String} {order : Ordering} {orders : List Ordering}

/-- How the value that a row has in a field compares with a literal. -/
def Compares (schema : Schema) (field : String) (literal : Value) (row : Bytes)
    (order : Ordering) : Prop :=
  ∃ value, decodeColumn schema row field = .ok value ∧ value.compare? literal = some order

/-- Every row compares with a literal of the kind that the column holds. -/
theorem exists_compares (hcolumn : column ∈ schema.columns)
    (hkind : column.type.isInteger = true ↔ literal.kind = .integer)
    (hread : ∃ value, decodeColumn schema row column.name = .ok value) :
    ∃ order, Compares schema column.name literal row order := by
  obtain ⟨value, hread⟩ := hread
  obtain ⟨offset, hfound⟩ := Schema.column?_of_mem hcolumn
  have hcell := hread
  rw [decodeColumn, hfound] at hcell
  obtain ⟨order, horder⟩ :=
    Value.exists_compare? ((Cell.kind_of_decode hcell).symm.trans hkind)
  exact ⟨order, value, hread, horder⟩

theorem exists_orders (hcolumn : column ∈ schema.columns)
    (hkind : column.type.isInteger = true ↔ literal.kind = .integer)
    (hread : ∀ row ∈ rows, ∃ value, decodeColumn schema row column.name = .ok value) :
    ∃ orders, List.Forall₂ (Compares schema column.name literal) rows orders := by
  induction rows with
  | nil => exact ⟨[], .nil⟩
  | cons row rest ih =>
      obtain ⟨hrow, hrest⟩ := List.forall_mem_cons.mp hread
      obtain ⟨order, horder⟩ := exists_compares hcolumn hkind hrow
      obtain ⟨orders, horders⟩ := ih hrest
      exact ⟨order :: orders, .cons horder horders⟩

end Row

namespace Selection

variable {schema : Schema} {rows : List Bytes} {row : Bytes} {fields : Fields}
  {table field : String} {literal : Value} {records : List Record} {record : Record}
  {order : Ordering} {orders : List Ordering}

theorem answerRow_of_decode
    (hdecode : Row.decode schema row (Plan.fieldNames schema fields) = .ok record) :
    answerRow ⟨fields, table, none⟩ schema row = .ok (some record) := by
  rw [answerRow, fieldNames, hdecode]
  rfl

/-- A comparison keeps the record of a row or leaves it out, as the operator holds of the order. -/
theorem answerRow_of_compares (hcompares : Row.Compares schema field literal row order)
    (hdecode : Row.decode schema row (Plan.fieldNames schema fields) = .ok record)
    (operator : Operator) :
    answerRow ⟨fields, table, some ⟨field, operator, literal⟩⟩ schema row =
      .ok (if operator.holds order then some record else none) := by
  obtain ⟨value, hread, hcompare⟩ := hcompares
  have hmeets : meets ⟨fields, table, some ⟨field, operator, literal⟩⟩ schema row =
      .ok (operator.holds order) := by
    change (Row.decodeColumn schema row field).map _ = _
    rw [hread, Except.map, Condition.holds_of_compare? hcompare]
  rw [answerRow, hmeets, fieldNames, hdecode]
  cases operator.holds order <;> rfl

theorem answerRows_of_decode (hdecode : List.Forall₂ (fun row record =>
      Row.decode schema row (Plan.fieldNames schema fields) = .ok record) rows records) :
    answerRows ⟨fields, table, none⟩ schema rows = .ok records := by
  rw [answerRows]
  induction hdecode with
  | nil => rfl
  | cons hrecord hrecords ih =>
      rw [filterMapM_cons_of_ok (answerRow_of_decode hrecord), ih]
      rfl

/-- A comparison keeps the records at the positions where its operator holds. -/
theorem answerRows_of_compares (hdecode : List.Forall₂ (fun row record =>
      Row.decode schema row (Plan.fieldNames schema fields) = .ok record) rows records)
    (hcompares : List.Forall₂ (Row.Compares schema field literal) rows orders)
    (operator : Operator) :
    answerRows ⟨fields, table, some ⟨field, operator, literal⟩⟩ schema rows =
      .ok (operator.keep orders records) := by
  rw [answerRows]
  induction hdecode generalizing orders with
  | nil =>
      cases hcompares
      rfl
  | cons hrecord hrecords ih =>
      cases hcompares with
      | cons hcompare hrest =>
          rw [filterMapM_cons_of_ok (answerRow_of_compares hcompare hrecord operator), ih hrest,
            Operator.keep_cons]
          split <;> rfl

end Selection

namespace Engine

variable {σ Handle : Type} {engine : Engine (StateM σ) Handle} {state : σ} {schema : Schema}
  {fields : Fields} {table : String} {column : Column} {literal : Value} {content : Bytes}

/-- The result of a selection that fits its schema, by the records of its rows. -/
theorem select_of_answerRows {selection : Selection}
    (hkeeps : engine.storage.Keeps state selection.table content)
    (hresolve : engine.catalog.resolve selection.table = .ok schema)
    (hchunk : 0 < engine.chunkSize ∧ engine.chunkSize ≤ maxChunkSize)
    (hfits : selection.Fits schema) {records : List Record}
    (hanswer : selection.answerRows schema (Row.slices schema.rowSize
      (Selection.rowsInChunk schema engine.chunkSize content) content) = .ok records) :
    ((engine.select selection).run state).1 = .ok ⟨selection.fieldNames schema, records,
      decide (engine.chunkSize < content.length),
      if engine.chunkSize < content.length then
        some (Selection.rowsInChunk schema engine.chunkSize content * schema.rowSize)
      else none⟩ := by
  obtain ⟨plan, hplan⟩ := Plan.exists_ofSelection hchunk hfits
  rw [select_run hresolve (readTable_run_of_keeps hkeeps hchunk.2),
    Selection.answerFrom_ofContent hplan, hanswer]
  rfl

/-- If the fields of a selection and a column can be read in all whole rows of the chunk, the
selection has a result, and so has each comparison of the column with a literal of its kind.
Every row compares with the literal, the results of the comparisons are the rows at the positions
where the operator holds, in their order, and at every position one of less, equal and greater
holds, and not equal if one of less and greater does. -/
theorem select_partitions (hkeeps : engine.storage.Keeps state table content)
    (hresolve : engine.catalog.resolve table = .ok schema)
    (hchunk : 0 < engine.chunkSize ∧ engine.chunkSize ≤ maxChunkSize)
    (hfields : ∀ name ∈ Plan.fieldNames schema fields, name ∈ schema.columnNames)
    (hcolumn : column ∈ schema.columns)
    (hkind : column.type.isInteger = true ↔ literal.kind = .integer)
    (hread : ∀ row ∈ Row.slices schema.rowSize
        (min content.length engine.chunkSize / schema.rowSize) content,
      ∀ name ∈ column.name :: Plan.fieldNames schema fields,
        ∃ value, Row.decodeColumn schema row name = .ok value) :
    ∃ all orders,
      ((engine.select ⟨fields, table, none⟩).run state).1 = .ok all ∧
      List.Forall₂ (Row.Compares schema column.name literal)
        (Row.slices schema.rowSize (min content.length engine.chunkSize / schema.rowSize) content)
        orders ∧
      (∀ operator,
        ((engine.select ⟨fields, table, some ⟨column.name, operator, literal⟩⟩).run state).1 =
          .ok { all with rows := operator.keep orders all.rows }) ∧
      all.rows.length = orders.length ∧
      ∀ order ∈ orders,
        (∃! operator, operator ∈ [.less, .equal, .greater] ∧
          Operator.holds operator order = true) ∧
        (Operator.notEqual.holds order = true ↔
          Operator.less.holds order = true ∨ Operator.greater.holds order = true) := by
  obtain ⟨orders, horders⟩ := Row.exists_orders hcolumn hkind fun row hrow =>
    hread row hrow column.name List.mem_cons_self
  obtain ⟨records, hrecords⟩ := exists_mapM_ok fun row hrow =>
    Row.exists_decode fun name hname => hread row hrow name (List.mem_cons_of_mem _ hname)
  rw [mapM_eq_ok_iff] at hrecords
  have hfits : Selection.Fits ⟨fields, table, none⟩ schema := ⟨hfields, nofun⟩
  refine ⟨_, orders, select_of_answerRows hkeeps hresolve hchunk hfits
    (Selection.answerRows_of_decode hrecords), horders, fun operator => ?_, ?_,
    fun order _ => Operator.partition order⟩
  · have hfits' : Selection.Fits ⟨fields, table, some ⟨column.name, operator, literal⟩⟩ schema := by
      refine ⟨hfields, ?_⟩
      rintro condition hcondition
      cases hcondition
      exact ⟨column, hcolumn, rfl, hkind⟩
    exact select_of_answerRows hkeeps hresolve hchunk hfits'
      (Selection.answerRows_of_compares hrecords horders operator)
  · exact hrecords.length_eq.symm.trans horders.length_eq

/-- No 32-bit number is as great as the literal, so that all rows are less. The first label is
not read. -/
theorem select_partitions_labels :
    let select (condition : Option Condition) :=
      ((labelEngine.select ⟨.named ["id"], "Label", condition⟩).run labelMemory).1
    ∃ all orders, select none = .ok all ∧ all.rows.length = orders.length ∧
      List.Forall₂ (Row.Compares labelTable "id" (.integer 3000000000))
        [[1, 0, 0, 0, 0xFF, 0xFF], [2, 0, 0, 0, 0x41, 0]] orders ∧
      ∀ operator, select (some ⟨"id", operator, .integer 3000000000⟩) =
        .ok { all with rows := operator.keep orders all.rows } := by
  intro select
  have hkeeps : labelEngine.storage.Keeps labelMemory "Label" labelBytes := .memory rfl
  have hresolve : labelEngine.catalog.resolve "Label" = .ok labelTable := by decide
  have hread : ∀ row ∈ [[1, 0, 0, 0, 0xFF, 0xFF], [2, 0, 0, 0, 0x41, 0]], ∀ name ∈ ["id", "id"],
      ∃ value, Row.decodeColumn labelTable row name = .ok value := by
    simp only [List.forall_mem_cons, List.not_mem_nil, false_implies, implies_true, and_true,
      and_self]
    exact ⟨⟨.integer 1, by decide +kernel⟩, ⟨.integer 2, by decide +kernel⟩⟩
  have hchunk : 0 < labelEngine.chunkSize ∧ labelEngine.chunkSize ≤ maxChunkSize := by decide
  have hfields : ∀ name ∈ Plan.fieldNames labelTable (.named ["id"]),
      name ∈ labelTable.columnNames := by decide
  have hcolumn : ⟨"id", .int⟩ ∈ labelTable.columns := by decide
  have hkind : ColumnType.int.isInteger = true ↔ (Value.integer 3000000000).kind = .integer := by
    decide
  obtain ⟨all, orders, hall, horders, hcomparisons, hlength, -⟩ :=
    select_partitions hkeeps hresolve hchunk hfields hcolumn hkind hread
  exact ⟨all, orders, hall, hlength, horders, hcomparisons⟩

end Engine

end Tabular
