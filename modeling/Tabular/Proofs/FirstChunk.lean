import Tabular.Proofs.Engine

/-! # Selections from the first chunk

A selection reads the first chunk of its table, and its outcome is that of
looking at the whole rows in the chunk one after the other, each by itself. It
also says where the table goes on: the rows from there on complete the answer.
-/

namespace Tabular

namespace Selection

/-- The outcome is that of looking at rows one after the other: there is a result
exactly if all cells that are looked at decode, it holds the records of the rows
that meet the condition, and otherwise the first cell that does not decode is the
error. -/
structure AnsweredByRows (selection : Selection) (schema : Schema) (rows : List Bytes)
    (outcome : Outcome QueryResult) : Prop where
  answered_iff : (∃ result, outcome = .ok result) ↔
    ∀ row ∈ rows, ∀ cell ∈ selection.cells schema row, ∃ value, cell = .ok value
  records : ∀ result, outcome = .ok result →
    List.Forall₂ (selection.IsRecord schema) (rows.filter (selection.admits schema)) result.rows
  error : ∀ e, outcome = .error e → ∃ before after,
    rows.flatMap (selection.cells schema) = before ++ .error e :: after ∧
      ∀ cell ∈ before, ∃ value, cell = .ok value

/-- The records of the rows that meet the condition, up to the first error. -/
def answerRows (selection : Selection) (schema : Schema) (rows : List Bytes) :
    Outcome (List Record) :=
  rows.filterMapM (selection.answerRow schema)

variable {selection : Selection} {schema : Schema}

theorem answerRows_eq_error_iff {rows : List Bytes} {e : Error} :
    selection.answerRows schema rows = .error e ↔
      firstError? (rows.flatMap (selection.cells schema)) = some e := by
  rw [answerRows, filterMapM_eq_error_iff, firstError?_flatMap fun _ _ => firstError?_cells]

/-- The records answered are those of the rows that meet the condition. -/
theorem records_of_answerRows {rows : List Bytes} {records : List Record}
    (hanswer : selection.answerRows schema rows = .ok records) :
    List.Forall₂ (selection.IsRecord schema) (rows.filter (selection.admits schema)) records := by
  rw [answerRows] at hanswer
  induction rows generalizing records with
  | nil =>
      cases hanswer
      exact .nil
  | cons row rest ih =>
      rw [List.filterMapM_cons, Outcome.bind_eq_ok] at hanswer
      obtain ⟨answer, hrow, hanswer⟩ := hanswer
      cases answer with
      | none =>
          rw [List.filter_cons_of_neg (by simp [admits_eq_false_of_answerRow hrow])]
          exact ih hanswer
      | some record =>
          obtain ⟨hadmits, hrecord⟩ := isRecord_of_answerRow hrow
          rw [Outcome.bind_eq_ok] at hanswer
          obtain ⟨others, hothers, hanswer⟩ := hanswer
          cases hanswer
          rw [List.filter_cons_of_pos hadmits]
          exact .cons hrecord (ih hothers)

/-- An outcome that has the records of rows or their error is that of looking at
the rows. -/
theorem answeredByRows_of_answerRows {rows : List Bytes} {outcome : Outcome QueryResult}
    (houtcome : outcome.map QueryResult.rows = selection.answerRows schema rows) :
    selection.AnsweredByRows schema rows outcome := by
  have herror : ∀ e, outcome = .error e →
      firstError? (rows.flatMap (selection.cells schema)) = some e := by
    rintro e rfl
    exact answerRows_eq_error_iff.mp houtcome.symm
  refine ⟨?_, ?_, fun e he => firstError?_eq_some_iff.mp (herror e he)⟩
  · have hcells : (∀ row ∈ rows, ∀ cell ∈ selection.cells schema row, ∃ value, cell = .ok value) ↔
        firstError? (rows.flatMap (selection.cells schema)) = none := by
      rw [firstError?_eq_none_iff]
      simp only [List.mem_flatMap, forall_exists_index, and_imp]
      exact ⟨fun h cell row hrow hcell => h row hrow cell hcell,
        fun h row hrow cell hcell => h cell row hrow hcell⟩
    rw [hcells]
    constructor
    · rintro ⟨result, rfl⟩
      cases hfirst : firstError? (rows.flatMap (selection.cells schema)) with
      | none => rfl
      | some e =>
          rw [answerRows_eq_error_iff.mpr hfirst] at houtcome
          cases houtcome
    · intro hnone
      cases hresult : outcome with
      | ok result => exact ⟨result, rfl⟩
      | error e =>
          rw [herror e hresult] at hnone
          cases hnone
  · rintro result rfl
    exact records_of_answerRows houtcome.symm

end Selection

namespace Plan

variable {plan : Plan} {selection : Selection} {schema : Schema}

/-- The result of a scan, by what the selection makes of the rows that are found. -/
theorem Executes.scan_eq (hplan : plan.Executes selection schema) (chunk : Chunk) :
    plan.scan chunk = (selection.answerRows schema (chunk.found schema.rowSize)).map fun rows =>
      ⟨selection.fieldNames schema, rows, chunk.isTruncated, chunk.nextOffset.map fun _ =>
        Word.addWrapping chunk.offset (chunk.wholeRows schema.rowSize * schema.rowSize)⟩ := by
  have hanswer : plan.scanRow = selection.answerRow schema := funext hplan.scanRow
  rw [scan_eq_filterMapM, hplan.rowSize, hanswer, hplan.names, Selection.answerRows]

end Plan

namespace Selection

variable {selection : Selection} {schema : Schema} {chunkSize : Nat} {content : Bytes}

def rowsInChunk (schema : Schema) (chunkSize : Nat) (content : Bytes) : Nat :=
  min content.length chunkSize / schema.rowSize

theorem rowsInChunk_mul_le (schema : Schema) (chunkSize : Nat) (content : Bytes) :
    rowsInChunk schema chunkSize content * schema.rowSize ≤ chunkSize :=
  Nat.le_trans (Nat.div_mul_le_self _ _) (Nat.min_le_right _ _)

/-- What a selection makes of the first chunk of a content: the records of the rows
in it, and where the next row starts if the content goes on. -/
theorem answerFrom_ofContent {plan : Plan}
    (hplan : Plan.ofSelection chunkSize schema selection = .ok plan) :
    selection.answerFrom chunkSize schema (.ok (Chunk.ofContent content 0 chunkSize)) =
      (selection.answerRows schema
        (Row.slices schema.rowSize (rowsInChunk schema chunkSize content) content)).map fun rows =>
          ⟨selection.fieldNames schema, rows, decide (chunkSize < content.length),
            if chunkSize < content.length then
              some (rowsInChunk schema chunkSize content * schema.rowSize)
            else none⟩ := by
  obtain ⟨hexecutes, -, hchunk⟩ := Plan.executes_of_ofSelection hplan
  have htruncated : (Chunk.ofContent content 0 chunkSize).isTruncated =
      decide (chunkSize < content.length) := by
    rw [Bool.eq_iff_iff, Chunk.ofContent_isTruncated, decide_eq_true_iff, Nat.zero_add]
  have hwhole : (Chunk.ofContent content 0 chunkSize).wholeRows schema.rowSize =
      rowsInChunk schema chunkSize content := by
    rw [Chunk.wholeRows, Chunk.ofContent_validBytes, Nat.sub_zero, Nat.min_comm, rowsInChunk]
  have hword : chunkSize < Word.count := Nat.lt_of_le_of_lt hchunk (by decide)
  have hrows : (Chunk.ofContent content 0 chunkSize).found schema.rowSize =
      Row.slices schema.rowSize (rowsInChunk schema chunkSize content) content := by
    rw [Chunk.found_eq_rows, Chunk.rows_ofContent, rowsInChunk]
    rw [Chunk.ofContent_validBytes]
    exact Nat.lt_of_le_of_lt (Nat.min_le_left ..) hword
  have hresume : Word.addWrapping 0 (rowsInChunk schema chunkSize content * schema.rowSize) =
      rowsInChunk schema chunkSize content * schema.rowSize := by
    rw [Word.addWrapping, Nat.zero_add, Nat.mod_eq_of_lt]
    exact Nat.lt_of_le_of_lt (rowsInChunk_mul_le schema chunkSize content) hword
  rw [answerFrom, hplan]
  change plan.scan _ = _
  rw [hexecutes.scan_eq, hrows, htruncated, hwhole]
  congr 1
  funext rows
  congr 1
  change ((Chunk.ofContent content 0 chunkSize).nextOffset.map fun _ => Word.addWrapping 0 _) = _
  rw [hresume, Chunk.ofContent, Nat.zero_add]
  split <;> rfl

end Selection

namespace Engine

variable {σ Handle : Type} {engine : Engine (StateM σ) Handle} {state : σ} {schema : Schema}
  {selection : Selection} {content : Bytes}

theorem readTable_run_of_keeps (hkeeps : engine.storage.Keeps state selection.table content)
    (hchunk : engine.chunkSize ≤ maxChunkSize) :
    (engine.readTable selection.table).run state =
      (.ok (Chunk.ofContent content 0 engine.chunkSize), state) := by
  have hword : engine.chunkSize < Word.max := Nat.lt_of_le_of_lt hchunk (by decide)
  rw [readTable_eq_readOnce]
  exact hkeeps.readOnce_run (by decide) (.inr (by omega))

/-- A selection from a table, in memory or in a file, has the outcome of looking
at the whole rows that lie in the first chunk of the table, one after the other.
What other cells and other bytes of the table hold makes no difference. -/
theorem select_answeredByRows (hkeeps : engine.storage.Keeps state selection.table content)
    (hresolve : engine.catalog.resolve selection.table = .ok schema)
    (hchunk : 0 < engine.chunkSize ∧ engine.chunkSize ≤ maxChunkSize)
    (hfits : selection.Fits schema) :
    selection.AnsweredByRows schema
      (Row.slices schema.rowSize (min content.length engine.chunkSize / schema.rowSize) content)
      ((engine.select selection).run state).1 := by
  obtain ⟨plan, hplan⟩ := Plan.exists_ofSelection hchunk hfits
  rw [select_run hresolve (readTable_run_of_keeps hkeeps hchunk.2)]
  apply Selection.answeredByRows_of_answerRows
  rw [Selection.answerFrom_ofContent hplan, Selection.rowsInChunk]
  cases selection.answerRows schema
    (Row.slices schema.rowSize (min content.length engine.chunkSize / schema.rowSize) content) <;>
      rfl

end Engine

def labelTable : Schema where
  name := "Label"
  columns := [⟨"id", .int⟩, ⟨"text", .char 2⟩]
  nonempty := by decide
  distinct := by decide
  narrow := by decide

/-- Two rows and the beginning of a third. The first label is no text. -/
def labelBytes : Bytes :=
  [1, 0, 0, 0, 0xFF, 0xFF, 2, 0, 0, 0, 0x41, 0, 3, 0]

def labelMemory : Memory :=
  Memory.empty.put "Label" labelBytes

/-- The row of the bad label does not meet the condition. -/
def labelSelection : Selection :=
  ⟨.all, "Label", some ⟨"id", .equal, .integer 2⟩⟩

/-- The chunk ends inside the third row. -/
def labelEngine : Engine (StateM Memory) Bytes :=
  ⟨⟨[labelTable], List.pairwise_singleton ..⟩, Memory.storage, 13⟩

theorem select_answeredByRows_labels :
    labelSelection.AnsweredByRows labelTable [[1, 0, 0, 0, 0xFF, 0xFF], [2, 0, 0, 0, 0x41, 0]]
      ((labelEngine.select labelSelection).run labelMemory).1 := by
  have hkeeps : labelEngine.storage.Keeps labelMemory labelSelection.table labelBytes := .memory rfl
  have hresolve : labelEngine.catalog.resolve labelSelection.table = .ok labelTable := by decide
  have hfits : labelSelection.Fits labelTable := by
    constructor
    · decide
    · rintro condition hcondition
      cases hcondition
      exact ⟨⟨"id", .int⟩, by decide, rfl, by decide⟩
  exact Engine.select_answeredByRows hkeeps hresolve ⟨by decide, by decide⟩ hfits

/-- What a result leaves unread of a content. -/
def QueryResult.unread (result : QueryResult) (content : Bytes) : Bytes :=
  match result.resumeOffset with
  | some offset => content.drop offset
  | none => []

namespace Selection

variable {selection : Selection} {schema : Schema} {chunkSize : Nat} {content : Bytes}

/-- The records of all whole rows of a content that meet the condition, up to the
first error. -/
def answerTable (selection : Selection) (schema : Schema) (content : Bytes) :
    Outcome (List Record) :=
  selection.answerRows schema
    (Row.slices schema.rowSize (content.length / schema.rowSize) content)

theorem answerTable_nil : selection.answerTable schema [] = .ok [] := by
  rw [answerTable, List.length_nil, Nat.zero_div]
  rfl

theorem answerRows_append (first second : List Bytes) :
    selection.answerRows schema (first ++ second) = do
      let before ← selection.answerRows schema first
      let after ← selection.answerRows schema second
      return before ++ after :=
  filterMapM_append first second

/-- The whole rows of a content are those before some row and those from it on. -/
theorem answerTable_split {count : Nat} (hcount : count ≤ content.length / schema.rowSize) :
    selection.answerTable schema content = do
      let before ← selection.answerRows schema (Row.slices schema.rowSize count content)
      let after ← selection.answerTable schema (content.drop (count * schema.rowSize))
      return before ++ after := by
  have hrest : (content.drop (count * schema.rowSize)).length / schema.rowSize =
      content.length / schema.rowSize - count := by
    rw [List.length_drop, Nat.mul_comm]
    exact Nat.sub_mul_div ..
  rw [answerTable, answerTable, hrest, ← answerRows_append, ← Row.slices_add,
    Nat.add_sub_cancel' hcount]

end Selection

namespace Engine

variable {σ Handle : Type} {engine : Engine (StateM σ) Handle} {state : σ} {schema : Schema}
  {selection : Selection} {content : Bytes}

theorem exists_plan_of_select (hresolve : engine.catalog.resolve selection.table = .ok schema)
    {result : QueryResult} (hselect : ((engine.select selection).run state).1 = .ok result) :
    ∃ plan, Plan.ofSelection engine.chunkSize schema selection = .ok plan := by
  rw [select_eq, hresolve] at hselect
  change ((engine.selectWith schema selection).run state).1 = _ at hselect
  rw [selectWith_eq] at hselect
  cases hplan : Plan.ofSelection engine.chunkSize schema selection with
  | ok plan => exact ⟨plan, rfl⟩
  | error e =>
      rw [hplan] at hselect
      cases hselect

/-- A result tells whether the table goes on behind the chunk that was read, and
from which row on. The rows before and from there on are all the rows of the table,
so that the records of the result and those of the rows from there on are the answer
over the whole table. -/
theorem select_resumes (hkeeps : engine.storage.Keeps state selection.table content)
    (hresolve : engine.catalog.resolve selection.table = .ok schema) {result : QueryResult}
    (hselect : ((engine.select selection).run state).1 = .ok result) :
    (result.truncated = true ↔ engine.chunkSize < content.length) ∧
      (result.resumeOffset.isSome = true ↔ result.truncated = true) ∧
      (∀ offset ∈ result.resumeOffset, schema.rowSize ∣ offset ∧ offset ≤ engine.chunkSize) ∧
      selection.answerTable schema content =
        (selection.answerTable schema (result.unread content)).map (result.rows ++ ·) := by
  obtain ⟨plan, hplan⟩ := exists_plan_of_select hresolve hselect
  obtain ⟨-, -, hchunk⟩ := Plan.executes_of_ofSelection hplan
  rw [select_run hresolve (readTable_run_of_keeps hkeeps hchunk),
    Selection.answerFrom_ofContent hplan, Outcome.map_eq_ok] at hselect
  obtain ⟨rows, hrows, rfl⟩ := hselect
  have hcount : Selection.rowsInChunk schema engine.chunkSize content ≤
      content.length / schema.rowSize := Nat.div_le_div_right (Nat.min_le_left ..)
  by_cases hmore : engine.chunkSize < content.length
  · simp only [hmore, decide_true, if_true, Option.isSome_some, true_and, Option.mem_some_iff,
      forall_eq']
    refine ⟨⟨Nat.dvd_mul_left .., Selection.rowsInChunk_mul_le ..⟩, ?_⟩
    rw [Selection.answerTable_split hcount, hrows]
    rfl
  · simp only [hmore, decide_false, if_false, Option.isSome_none, Bool.false_eq_true, true_and,
      Option.not_mem_none, false_implies, implies_true]
    -- The chunk holds the whole table: there are no further rows.
    have hall : Selection.rowsInChunk schema engine.chunkSize content =
        content.length / schema.rowSize := by
      rw [Selection.rowsInChunk, Nat.min_eq_left (by omega)]
    rw [hall] at hrows
    rw [Selection.answerTable, hrows]
    change _ = (selection.answerTable schema []).map (rows ++ ·)
    rw [Selection.answerTable_nil, Except.map, List.append_nil]

theorem select_resumes_labels :
    (true = true ↔ 13 < labelBytes.length) ∧ ((some 12).isSome = true ↔ true = true) ∧
      (∀ offset ∈ some 12, 6 ∣ offset ∧ offset ≤ 13) ∧
      labelSelection.answerTable labelTable labelBytes =
        (labelSelection.answerTable labelTable [3, 0]).map
          ([⟨[("id", .integer 2), ("text", .text "A")]⟩] ++ ·) := by
  have hkeeps : labelEngine.storage.Keeps labelMemory labelSelection.table labelBytes := .memory rfl
  have hresolve : labelEngine.catalog.resolve labelSelection.table = .ok labelTable := by decide
  have hselect : ((labelEngine.select labelSelection).run labelMemory).1 =
      .ok ⟨["id", "text"], [⟨[("id", .integer 2), ("text", .text "A")]⟩], true, some 12⟩ := by
    decide
  exact select_resumes hkeeps hresolve hselect

end Engine

end Tabular
