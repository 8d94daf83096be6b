import Tabular.Proofs.Chunk
import Tabular.Proofs.Schema
import Tabular.Proofs.Selection

/-! # What a plan does

A plan is made of every selection that fits its schema, and it answers a row as
the selection itself does: that columns are looked up once, and not for every
row, makes no difference. A scan takes the rows that are found one after the other, up to the
first index without a row.
-/

namespace Tabular

namespace BoundColumn

theorem ofName_eq_ok {schema : Schema} {name : String} {column : BoundColumn}
    (hbound : ofName schema name = .ok column) :
    column.name = name ∧ ∀ row, column.read row = Row.decodeColumn schema row name := by
  rw [ofName] at hbound
  split at hbound
  next found offset hfound =>
    cases hbound
    refine ⟨(Schema.column?_eq_some hfound).2.1, fun row => ?_⟩
    rw [read, Row.decodeColumn, hfound]
  next => cases hbound

theorem exists_ofName {schema : Schema} {name : String} (hname : name ∈ schema.columnNames) :
    ∃ column, ofName schema name = .ok column := by
  obtain ⟨⟨column, offset⟩, hfound⟩ := Schema.exists_column?_iff.mpr hname
  exact ⟨_, by rw [ofName, hfound]⟩

end BoundColumn

namespace Filter

theorem ofCondition_eq_ok {schema : Schema} {condition : Condition} {filter : Filter}
    (hfilter : ofCondition schema condition = .ok filter) :
    filter.condition = condition ∧
      ∀ row, filter.column.read row = Row.decodeColumn schema row condition.field := by
  rw [ofCondition, Outcome.bind_eq_ok] at hfilter
  obtain ⟨column, hcolumn, hfilter⟩ := hfilter
  rw [Outcome.bind_eq_ok] at hfilter
  obtain ⟨-, -, hfilter⟩ := hfilter
  cases hfilter
  exact ⟨rfl, (BoundColumn.ofName_eq_ok hcolumn).2⟩

theorem exists_ofCondition {schema : Schema} {condition : Condition} {column : Column}
    (hmem : column ∈ schema.columns) (hname : column.name = condition.field)
    (hkind : column.type.isInteger = true ↔ condition.value.kind = .integer) :
    ∃ filter, ofCondition schema condition = .ok filter := by
  obtain ⟨offset, hfound⟩ := Schema.column?_of_mem hmem
  rw [hname] at hfound
  have hbound : BoundColumn.ofName schema condition.field =
      .ok ⟨column.name, column.type, offset⟩ := by
    rw [BoundColumn.ofName, hfound]
  have hcomparable : BoundColumn.checkComparable ⟨column.name, column.type, offset⟩
      condition.value = .ok () := by
    rw [BoundColumn.checkComparable, if_pos]
    rw [Bool.eq_iff_iff, beq_iff_eq]
    exact hkind
  refine ⟨⟨condition, ⟨column.name, column.type, offset⟩⟩, ?_⟩
  rw [ofCondition, hbound]
  change (BoundColumn.checkComparable _ _ >>= _) = _
  rw [hcomparable]
  rfl

end Filter

theorem checkChunkSize_eq_ok_iff {size : Nat} :
    checkChunkSize size = .ok () ↔ 0 < size ∧ size ≤ maxChunkSize := by
  rw [checkChunkSize]
  split
  · simp only [reduceCtorEq, false_iff]
    omega
  · simp only [true_iff]
    omega

theorem checkChunkSize_eq_error_iff {size : Nat} {e : Error} :
    checkChunkSize size = .error e ↔
      ¬(0 < size ∧ size ≤ maxChunkSize) ∧ e = .invalidArgument (.chunkSize size) := by
  unfold checkChunkSize
  split
  next hsize =>
    rw [Except.error.injEq]
    constructor
    · rintro rfl
      exact ⟨by omega, rfl⟩
    · rintro ⟨-, rfl⟩
      rfl
  next hsize =>
    simp only [reduceCtorEq, false_iff]
    omega

namespace Plan

/-- The plan does what the selection asks for. -/
structure Executes (plan : Plan) (selection : Selection) (schema : Schema) : Prop where
  names : plan.projection.map BoundColumn.name = selection.fieldNames schema
  rowSize : plan.rowSize = schema.rowSize
  scanRow : ∀ row, plan.scanRow row = selection.answerRow schema row

theorem names_of_bound {schema : Schema} {names : List String} {projection : List BoundColumn}
    (hbound : List.Forall₂ (fun name column => BoundColumn.ofName schema name = .ok column)
      names projection) : projection.map BoundColumn.name = names := by
  induction hbound with
  | nil => rfl
  | cons hcolumn _ ih => rw [List.map_cons, ih, (BoundColumn.ofName_eq_ok hcolumn).1]

theorem project_eq_decode {schema : Schema} {names : List String} {projection : List BoundColumn}
    (hbound : List.Forall₂ (fun name column => BoundColumn.ofName schema name = .ok column)
      names projection) (filter : Option Filter) (rowSize : Nat) (row : Bytes) :
    project ⟨projection, filter, rowSize⟩ row = Row.decode schema row names := by
  rw [project, Row.decode]
  generalize Record.empty = record
  induction hbound generalizing record with
  | nil => rfl
  | @cons name column names projection hcolumn _ ih =>
      obtain ⟨hname, hread⟩ := BoundColumn.ofName_eq_ok hcolumn
      rw [List.foldlM_cons, List.foldlM_cons, hname, hread]
      congr 1
      funext next
      exact ih next

theorem admits_eq_meets {schema : Schema} {selection : Selection} {filter : Option Filter}
    (hfilter : filterOf schema selection.condition = .ok filter) (row : Bytes) :
    Filter.admits filter row = selection.meets schema row := by
  rw [Selection.meets]
  cases hcondition : selection.condition with
  | none =>
      rw [hcondition] at hfilter
      cases hfilter
      rfl
  | some condition =>
      rw [hcondition, filterOf, Outcome.bind_eq_ok] at hfilter
      obtain ⟨bound, hbound, hfilter⟩ := hfilter
      cases hfilter
      obtain ⟨hsame, hread⟩ := Filter.ofCondition_eq_ok hbound
      simp only [Filter.admits, hread, hsame]
      cases Row.decodeColumn schema row condition.field <;> rfl

theorem executes_of_ofSelection {chunkSize : Nat} {schema : Schema} {selection : Selection}
    {plan : Plan} (hplan : ofSelection chunkSize schema selection = .ok plan) :
    plan.Executes selection schema ∧ 0 < chunkSize ∧ chunkSize ≤ maxChunkSize := by
  rw [ofSelection, Outcome.bind_eq_ok] at hplan
  obtain ⟨⟨⟩, hchunk, hplan⟩ := hplan
  rw [Outcome.bind_eq_ok] at hplan
  obtain ⟨projection, hprojection, hplan⟩ := hplan
  rw [Outcome.bind_eq_ok] at hplan
  obtain ⟨filter, hfilter, hplan⟩ := hplan
  cases hplan
  rw [mapM_eq_ok_iff] at hprojection
  refine ⟨⟨?_, rfl, fun row => ?_⟩, checkChunkSize_eq_ok_iff.mp hchunk⟩
  · exact names_of_bound hprojection
  · rw [scanRow, Selection.answerRow, admits_eq_meets hfilter, project_eq_decode hprojection]
    rfl

/-- The rows that are found from an index on are traversed, and none behind the first that is not
found. -/
theorem scanRows_eq (plan : Plan) (row? : Nat → Option Bytes) (count index : Nat)
    (found : List Record) :
    plan.scanRows row? count index found =
      ((((List.range' index count).map row?).takeWhile Option.isSome).reduceOption.filterMapM
        plan.scanRow).map (found.reverse ++ ·) := by
  induction count generalizing index found with
  | zero => simp [scanRows, pure, Except.pure, Except.map]
  | succ count ih =>
      rw [scanRows, List.range'_succ, List.map_cons]
      cases row? index with
      | none => simp [pure, Except.pure, Except.map]
      | some row =>
          rw [List.takeWhile_cons_of_pos rfl, List.reduceOption_cons_of_some]
          dsimp only
          cases hrow : plan.scanRow row with
          | error e =>
              rw [List.filterMapM_cons, hrow]
              rfl
          | ok kept =>
              rw [filterMapM_cons_of_ok hrow, Outcome.map_map]
              cases kept with
              | none => exact ih (index + 1) found
              | some record =>
                  refine (ih (index + 1) (record :: found)).trans ?_
                  simp only [List.reverse_cons, List.append_assoc, Option.toList_some]

/-- The result of a scan, by the rows that are found. -/
theorem scan_eq_filterMapM (plan : Plan) (chunk : Chunk) :
    plan.scan chunk = ((chunk.found plan.rowSize).filterMapM plan.scanRow).map fun rows =>
      ⟨plan.projection.map BoundColumn.name, rows, chunk.isTruncated, chunk.nextOffset.map fun _ =>
        Word.addWrapping chunk.offset (chunk.wholeRows plan.rowSize * plan.rowSize)⟩ := by
  rw [scan, scanRows_eq, ← List.range_eq_range']
  change ((chunk.found plan.rowSize).filterMapM plan.scanRow).map _ >>= _ = _
  cases (chunk.found plan.rowSize).filterMapM plan.scanRow <;> rfl

/-- There is a plan for every selection that fits. -/
theorem exists_ofSelection {chunkSize : Nat} {schema : Schema} {selection : Selection}
    (hchunk : 0 < chunkSize ∧ chunkSize ≤ maxChunkSize) (hfits : selection.Fits schema) :
    ∃ plan, ofSelection chunkSize schema selection = .ok plan := by
  have hprojection : ∃ projection,
      (fieldNames schema selection.fields).mapM (BoundColumn.ofName schema) = .ok projection :=
    exists_mapM_ok fun name hname => BoundColumn.exists_ofName (hfits.fields name hname)
  have hfilter : ∃ filter, filterOf schema selection.condition = .ok filter := by
    cases hcondition : selection.condition with
    | none => exact ⟨none, rfl⟩
    | some condition =>
        obtain ⟨column, hmem, hname, hkind⟩ := hfits.condition condition hcondition
        obtain ⟨filter, hfilter⟩ := Filter.exists_ofCondition hmem hname hkind
        exact ⟨some filter, by rw [filterOf, hfilter]; rfl⟩
  obtain ⟨projection, hprojection⟩ := hprojection
  obtain ⟨filter, hfilter⟩ := hfilter
  refine ⟨⟨projection, filter, schema.rowSize⟩, ?_⟩
  simp only [ofSelection, Outcome.bind_eq_ok]
  exact ⟨(), checkChunkSize_eq_ok_iff.mpr hchunk, projection, hprojection, filter, hfilter, rfl⟩

end Plan

end Tabular
