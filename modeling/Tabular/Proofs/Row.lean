import Tabular.Proofs.Cell
import Tabular.Proofs.Schema
import Tabular.Proofs.Selection

/-! # Reading back rows

A row that was written from named values has the size that the schema says, and every
column of it is read back as the normal form of the first value given for it.
-/

namespace Tabular

namespace Row

variable {schema : Schema} {values : List (String × Value)} {row : Bytes}

theorem valueFor?_eq_lookup (values : List (String × Value)) (name : String) :
    valueFor? values name = values.lookup name := by
  induction values with
  | nil => rfl
  | cons entry rest ih =>
      obtain ⟨other, value⟩ := entry
      rw [valueFor?, List.find?_cons, List.lookup_cons]
      by_cases hname : other = name
      · subst hname
        simp
      · have hne : (other == name) = false := by simpa using hname
        have hne' : (name == other) = false := by simpa using Ne.symm hname
        rw [hne, hne']
        exact ih

theorem cellFor_eq_ok {column : Column} {cell : Bytes} (hcell : cellFor values column = .ok cell) :
    ∃ given, values.lookup column.name = some given ∧
      Cell.encode column.name column.type given = .ok cell := by
  rw [cellFor, valueFor?_eq_lookup] at hcell
  split at hcell
  next given hgiven => exact ⟨given, hgiven, hcell⟩
  next => cases hcell

theorem length_of_cellFor {column : Column} {cell : Bytes} (hcell : cellFor values column = .ok cell) :
    cell.length = column.type.width := by
  obtain ⟨given, -, hencode⟩ := cellFor_eq_ok hcell
  exact (Cell.decode_of_encode hencode).1

/-- A written row is one cell after the other. -/
theorem encode_eq_ok (hencode : encode schema values = .ok row) :
    ∃ cells, List.Forall₂ (fun column cell => cellFor values column = .ok cell)
      schema.columns cells ∧ row = cells.flatten := by
  rw [encode] at hencode
  split at hencode
  · cases hencode
  · obtain ⟨cells, hcells, hrow⟩ := Outcome.bind_eq_ok.mp hencode
    cases hrow
    exact ⟨cells, mapM_eq_ok_iff.mp hcells, rfl⟩

theorem length_flatten {columns : List Column} {cells : List Bytes}
    (hcells : List.Forall₂ (fun column cell => cellFor values column = .ok cell) columns cells) :
    cells.flatten.length = Column.totalWidth columns := by
  induction hcells with
  | nil => rfl
  | cons hcell hcells ih =>
      rw [List.flatten_cons, List.length_append, length_of_cellFor hcell, ih]
      rfl

theorem length_of_encode (hencode : encode schema values = .ok row) :
    row.length = schema.rowSize := by
  obtain ⟨cells, hcells, rfl⟩ := encode_eq_ok hencode
  rw [Schema.rowSize_eq]
  exact length_flatten hcells

/-- The cell of a column starts at the offset that the layout gives the column, behind
the bytes before all cells. -/
theorem drop_of_mem_layoutFrom {columns : List Column} {cells : List Bytes}
    (hcells : List.Forall₂ (fun column cell => cellFor values column = .ok cell) columns cells)
    {column : Column} {offset : Nat} (before : Bytes)
    (hmem : (column, offset) ∈ Column.layoutFrom before.length columns) :
    ∃ cell rest, cellFor values column = .ok cell ∧
      (before ++ cells.flatten).drop offset = cell ++ rest := by
  induction hcells generalizing before with
  | nil => cases hmem
  | @cons first cell columns cells hcell hcells ih =>
      rw [List.flatten_cons]
      rcases List.mem_cons.mp hmem with hfirst | hrest
      · cases hfirst
        exact ⟨cell, cells.flatten, hcell, List.drop_left⟩
      · -- The first cell now belongs to the bytes before all cells.
        rw [← List.append_assoc]
        apply ih (before ++ cell)
        rw [List.length_append, length_of_cellFor hcell]
        exact hrest

/-- Every column of a written row is read back as the normal form of the first value
given for it. -/
theorem decodeColumn_of_encode (hencode : encode schema values = .ok row) {column : Column}
    (hcolumn : column ∈ schema.columns) :
    ∃ given stored, values.lookup column.name = some given ∧
      decodeColumn schema row column.name = .ok stored ∧
        Cell.NormalForm column.type given stored := by
  obtain ⟨cells, hcells, rfl⟩ := encode_eq_ok hencode
  obtain ⟨offset, hfound⟩ := Schema.column?_of_mem hcolumn
  obtain ⟨-, -, hlayout⟩ := Schema.column?_eq_some hfound
  rw [Schema.layout_eq] at hlayout
  obtain ⟨cell, rest, hcell, hdrop⟩ := drop_of_mem_layoutFrom hcells [] hlayout
  obtain ⟨given, hgiven, hwrite⟩ := cellFor_eq_ok hcell
  obtain ⟨stored, hread, hnormal⟩ := (Cell.decode_of_encode hwrite).2 rest
  refine ⟨given, stored, hgiven, ?_, hnormal⟩
  rw [decodeColumn, hfound]
  change Cell.decode column.type (List.drop offset ([] ++ cells.flatten)) = _
  rw [hdrop, hread]

end Row

/-- Where no two fields share a name, each of them is found under its name. -/
theorem Record.get?_of_mem {record : Record} (hdistinct : record.names.Nodup)
    {entry : String × Value} (hentry : entry ∈ record.fields) :
    record.get? entry.1 = some entry.2 := by
  have hfound : record.fields.find? (fun other => other.1 == entry.1) = some entry :=
    find?_eq_some_of_mem hdistinct hentry
  rw [get?, hfound]
  rfl

/-- The record has the columns of the schema in order, and in each the normal form of
the first value given for it. -/
def Record.Holds (record : Record) (schema : Schema) (values : List (String × Value)) : Prop :=
  List.Forall₂ (fun column field => field.1 = column.name ∧
    ∃ given, values.lookup column.name = some given ∧ Cell.NormalForm column.type given field.2)
    schema.columns record.fields

theorem forall₂_exists_left {α β : Type} {R : α → β → Prop} {first : List α} {second : List β}
    (hrelated : List.Forall₂ R first second) : ∀ b ∈ second, ∃ a, R a b := by
  induction hrelated with
  | nil => exact nofun
  | cons hab hrest ih => exact List.forall_mem_cons.mpr ⟨⟨_, hab⟩, ih⟩

theorem forall₂_of_map_eq {α β : Type} {key : α → String} {key' : β → String} {R : α → β → Prop}
    {items : List α} {others : List β} (hkeys : others.map key' = items.map key)
    (hrelated : ∀ a ∈ items, ∀ b ∈ others, key' b = key a → R a b) :
    List.Forall₂ R items others := by
  induction items generalizing others with
  | nil =>
      rw [List.map_nil, List.map_eq_nil_iff] at hkeys
      rw [hkeys]
      exact .nil
  | cons a rest ih =>
      obtain ⟨b, others, rfl, hkey, hkeys⟩ := List.map_eq_cons_iff.mp hkeys
      refine .cons (hrelated a List.mem_cons_self b List.mem_cons_self hkey) (ih hkeys ?_)
      intro a ha b hb
      exact hrelated a (List.mem_cons_of_mem _ ha) b (List.mem_cons_of_mem _ hb)

/-- The record of all columns of a written row holds the values it was written from. -/
theorem Selection.IsRecord.holds {selection : Selection} {schema : Schema} {row : Bytes}
    {record : Record} (hrecord : selection.IsRecord schema row record)
    (hall : selection.fields = .all) {values : List (String × Value)}
    (hencode : Row.encode schema values = .ok row) : record.Holds schema values := by
  have hnames : record.fields.map Prod.fst = schema.columns.map Column.name := by
    have hdistinct := hrecord.names
    rw [Selection.fieldNames, hall] at hdistinct
    exact hdistinct.trans (Fields.distinct_of_nodup schema.distinct)
  apply forall₂_of_map_eq hnames
  intro column hcolumn field hfield hname
  obtain ⟨given, stored, hgiven, hread, hnormal⟩ := Row.decodeColumn_of_encode hencode hcolumn
  have hvalue := hrecord.values field hfield
  rw [hname, hread] at hvalue
  cases hvalue
  exact ⟨hname, given, hgiven, hnormal⟩

end Tabular
