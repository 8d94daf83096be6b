import Tabular.Schema

/-! # Finding columns

Every column of a schema is found under its own name, with the offset that the
layout gives it, and nothing else is found. The columns of a schema pass the check
that it was made with, and so they are laid out as in exact numbers.
-/

namespace Tabular

/-- Where keys are distinct, every entry is the first one of its key. -/
theorem find?_eq_some_of_mem {α : Type} {key : α → String} {entries : List α} {entry : α}
    (hdistinct : (entries.map key).Nodup) (hentry : entry ∈ entries) :
    entries.find? (fun other => key other == key entry) = some entry := by
  induction entries with
  | nil => cases hentry
  | cons first rest ih =>
      rw [List.map_cons, List.nodup_cons] at hdistinct
      rcases List.mem_cons.mp hentry with rfl | hrest
      · exact List.find?_cons_of_pos (beq_self_eq_true _)
      · have hne : key first ≠ key entry := fun heq =>
          hdistinct.1 (heq ▸ List.mem_map_of_mem hrest)
        rw [List.find?_cons_of_neg (by simpa using hne)]
        exact ih hdistinct.2 hrest

/-- The columns with their exact offsets, the first of them at a given one. -/
def Column.layoutFrom (offset : Nat) : List Column → List (Column × Nat)
  | [] => []
  | column :: rest => (column, offset) :: layoutFrom (offset + column.type.width) rest

theorem Column.layoutFrom_map_fst (offset : Nat) (columns : List Column) :
    (layoutFrom offset columns).map Prod.fst = columns := by
  induction columns generalizing offset with
  | nil => rfl
  | cons column rest ih => rw [layoutFrom, List.map_cons, ih]

/-- No offset stops short where the columns end at a width. -/
theorem Column.layOut_eq {offset : Nat} {columns : List Column}
    (hnarrow : offset + totalWidth columns < ColumnType.widthLimit) :
    layOut offset columns = (layoutFrom offset columns, offset + totalWidth columns) := by
  induction columns generalizing offset with
  | nil => rfl
  | cons column rest ih =>
      rw [totalWidth, ← Nat.add_assoc] at hnarrow
      have hnext : ColumnType.addWidthsSaturating offset column.type.width =
          offset + column.type.width := Nat.min_eq_left (by omega)
      rw [layOut, hnext, ih hnarrow, layoutFrom, totalWidth, ← Nat.add_assoc]

/-- Names that are pairwise different and were not seen before have no repeat. -/
theorem firstRepeatAfter_of_nodup {seen names : List String} (hdistinct : names.Nodup)
    (hfresh : ∀ name ∈ names, name ∉ seen) : firstRepeatAfter seen names = none := by
  induction names generalizing seen with
  | nil => rfl
  | cons name rest ih =>
      obtain ⟨hname, hrest⟩ := List.nodup_cons.mp hdistinct
      obtain ⟨hunseen, hothers⟩ := List.forall_mem_cons.mp hfresh
      rw [firstRepeatAfter, if_neg hunseen]
      refine ih hrest fun other hother hseen => ?_
      rcases List.mem_cons.mp hseen with rfl | hseen
      · exact hname hother
      · exact hothers other hother hseen

namespace Schema

theorem ofColumns_self (schema : Schema) : ofColumns schema.name schema.columns = .ok schema := by
  have hnone : firstRepeat? (schema.columns.map Column.name) = none :=
    firstRepeatAfter_of_nodup schema.distinct fun _ _ => List.not_mem_nil
  unfold ofColumns
  rw [dif_neg schema.nonempty]
  split
  next column hrepeat =>
    rw [hnone] at hrepeat
    cases hrepeat
  next =>
    have hwidth : Column.widthAfter? 0 schema.columns = some (Column.totalWidth schema.columns) := by
      rw [Column.widthAfter?_eq (by decide), Nat.zero_add, if_pos schema.narrow]
    split
    next => rfl
    next hnone =>
      rw [hwidth] at hnone
      cases hnone

theorem ofColumns_eq_ok {name : String} {columns : List Column} {schema : Schema} :
    ofColumns name columns = .ok schema ↔ schema.name = name ∧ schema.columns = columns := by
  constructor
  · intro hmade
    unfold ofColumns at hmade
    split at hmade
    next => cases hmade
    next =>
      split at hmade
      next => cases hmade
      next =>
        split at hmade
        next =>
          cases hmade
          exact ⟨rfl, rfl⟩
        next => cases hmade
  · rintro ⟨rfl, rfl⟩
    exact ofColumns_self schema

theorem layOut_columns (schema : Schema) :
    Column.layOut 0 schema.columns =
      (Column.layoutFrom 0 schema.columns, Column.totalWidth schema.columns) := by
  have hnarrow : 0 + Column.totalWidth schema.columns < ColumnType.widthLimit := by
    rw [Nat.zero_add]
    exact schema.narrow
  rw [Column.layOut_eq hnarrow, Nat.zero_add]

theorem rowSize_eq (schema : Schema) : schema.rowSize = Column.totalWidth schema.columns := by
  rw [rowSize, layOut_columns]

theorem layout_eq (schema : Schema) : schema.layout = Column.layoutFrom 0 schema.columns := by
  rw [layout, layOut_columns]

theorem layout_map_fst (schema : Schema) : schema.layout.map Prod.fst = schema.columns := by
  rw [layout_eq]
  exact Column.layoutFrom_map_fst 0 schema.columns

theorem layout_map_name (schema : Schema) :
    schema.layout.map (fun entry => entry.1.name) = schema.columnNames := by
  rw [columnNames, ← layout_map_fst, List.map_map]
  rfl

theorem layout_distinct (schema : Schema) :
    (schema.layout.map fun entry => entry.1.name).Nodup := by
  rw [layout_map_name]
  exact schema.distinct

/-- A column of the layout is found under its name. -/
theorem column?_of_mem_layout {schema : Schema} {column : Column} {offset : Nat}
    (hmem : (column, offset) ∈ schema.layout) :
    schema.column? column.name = some (column, offset) :=
  find?_eq_some_of_mem schema.layout_distinct hmem

theorem column?_of_mem {schema : Schema} {column : Column} (hmem : column ∈ schema.columns) :
    ∃ offset, schema.column? column.name = some (column, offset) := by
  rw [← layout_map_fst] at hmem
  obtain ⟨⟨column, offset⟩, hentry, rfl⟩ := List.mem_map.mp hmem
  exact ⟨offset, column?_of_mem_layout hentry⟩

/-- What is found under a name is a column of that name. -/
theorem column?_eq_some {schema : Schema} {name : String} {column : Column} {offset : Nat}
    (hfound : schema.column? name = some (column, offset)) :
    column ∈ schema.columns ∧ column.name = name ∧ (column, offset) ∈ schema.layout := by
  have hmem := List.mem_of_find?_eq_some hfound
  have hname := List.find?_some hfound
  refine ⟨?_, by simpa using hname, hmem⟩
  rw [← layout_map_fst]
  exact List.mem_map_of_mem hmem

/-- Exactly the names of the columns are found. -/
theorem exists_column?_iff {schema : Schema} {name : String} :
    (∃ found, schema.column? name = some found) ↔ name ∈ schema.columnNames := by
  constructor
  · rintro ⟨⟨column, offset⟩, hfound⟩
    obtain ⟨hmem, rfl, -⟩ := column?_eq_some hfound
    exact List.mem_map_of_mem hmem
  · intro hname
    obtain ⟨column, hmem, rfl⟩ := List.mem_map.mp hname
    obtain ⟨offset, hfound⟩ := column?_of_mem hmem
    exact ⟨(column, offset), hfound⟩

end Schema

end Tabular
