import Mathlib.Algebra.Order.Ring.Nat
import Tabular.Word
import Tabular.Proofs.Schema

/-! # Columns side by side

The columns of a schema take up a row one after the other, without a gap and without an
overlap: every byte of a row belongs to exactly one of them. Columns make up a schema exactly
if there are some, no two share a name and their exact width is a 32-bit number. So the sums
that stop at the largest number never do for a schema, and its cells are found where they
were put.
-/

namespace Tabular

namespace Column

variable {start stop : Nat} {entries : List (Column × Nat)}

theorem totalWidth_eq_sum (columns : List Column) :
    totalWidth columns = (columns.map fun column => column.type.width).sum := by
  induction columns with
  | nil => rfl
  | cons column rest ih => rw [totalWidth, ih, List.map_cons, List.sum_cons]

/-- The columns lie one after the other between two places: each of them starts where the
one before it ends. -/
inductive Tiles : Nat → List (Column × Nat) → Nat → Prop
  | nil (start : Nat) : Tiles start [] start
  | cons {column : Column} {start stop : Nat} {rest : List (Column × Nat)}
    (hrest : Tiles (start + column.type.width) rest stop) :
    Tiles start ((column, start) :: rest) stop

/-- The place is in the cell of a column at an offset. -/
def Occupies (entry : Column × Nat) (place : Nat) : Prop :=
  entry.2 ≤ place ∧ place < entry.2 + entry.1.type.width

theorem tiles_layoutFrom (offset : Nat) (columns : List Column) :
    Tiles offset (layoutFrom offset columns) (offset + totalWidth columns) := by
  induction columns generalizing offset with
  | nil => exact .nil offset
  | cons column rest ih =>
      rw [layoutFrom, totalWidth, ← Nat.add_assoc]
      exact .cons (ih (offset + column.type.width))

namespace Tiles

theorem le (htiles : Tiles start entries stop) : start ≤ stop := by
  induction htiles with
  | nil start => exact Nat.le_refl start
  | cons hrest ih => exact Nat.le_of_add_right_le ih

/-- Between the two places every byte is in the cell of a column, and none elsewhere. -/
theorem occupied_iff (htiles : Tiles start entries stop) (place : Nat) :
    (∃ entry ∈ entries, Occupies entry place) ↔ start ≤ place ∧ place < stop := by
  induction htiles with
  | nil start => simp
  | @cons column start stop rest hrest ih =>
      have hend := hrest.le
      simp only [List.mem_cons, exists_eq_or_imp, ih]
      change start ≤ place ∧ place < start + column.type.width ∨ _ ↔ _
      omega

theorem disjoint (htiles : Tiles start entries stop) :
    entries.Pairwise fun entry other => ∀ place, ¬(Occupies entry place ∧ Occupies other place) := by
  induction htiles with
  | nil => exact .nil
  | @cons column start stop rest hrest ih =>
      refine .cons (fun other hother place => ?_) ih
      rintro ⟨⟨-, hbefore⟩, hafter⟩
      have hplace := (hrest.occupied_iff place).mp ⟨other, hother, hafter⟩
      exact absurd hbefore (Nat.not_lt.mpr hplace.1)

/-- The cells put together are the bytes between the two places. -/
theorem flatten_cells (htiles : Tiles start entries stop) (bytes : Bytes) :
    (entries.map fun entry => (bytes.drop entry.2).take entry.1.type.width).flatten =
      (bytes.drop start).take (stop - start) := by
  induction htiles with
  | nil => simp
  | @cons column start stop rest hrest ih =>
      have hend := hrest.le
      have hlength : stop - start =
          column.type.width + (stop - (start + column.type.width)) := by omega
      rw [List.map_cons, List.flatten_cons, ih, hlength, List.take_add, List.drop_drop]

end Tiles

end Column

namespace Schema

/-- The columns lie in a row one after the other, from its first byte to its last. The size of
the row is the exact sum of their widths, each is found under its name with its own offset,
and every byte of the row is in the cell of one of them and of no other. -/
structure LaidOut (schema : Schema) : Prop where
  columns : schema.layout.map Prod.fst = schema.columns
  tiles : Column.Tiles 0 schema.layout schema.rowSize
  size : schema.rowSize = (schema.columns.map fun column => column.type.width).sum
  found : ∀ entry ∈ schema.layout, schema.column? entry.1.name = some entry
  disjoint : schema.layout.Pairwise fun entry other =>
    ∀ place, ¬(Column.Occupies entry place ∧ Column.Occupies other place)
  covered : ∀ place, place < schema.rowSize ↔
    ∃ entry ∈ schema.layout, Column.Occupies entry place

theorem tiles_layout (schema : Schema) : Column.Tiles 0 schema.layout schema.rowSize := by
  have htiles := Column.tiles_layoutFrom 0 schema.columns
  rw [Nat.zero_add] at htiles
  rwa [layout_eq, rowSize_eq]

theorem laidOut (schema : Schema) : schema.LaidOut where
  columns := schema.layout_map_fst
  tiles := schema.tiles_layout
  size := by rw [rowSize_eq, Column.totalWidth_eq_sum]
  found _ hentry := column?_of_mem_layout hentry
  disjoint := schema.tiles_layout.disjoint
  covered place := by simp [schema.tiles_layout.occupied_iff]

/-- Columns make up a schema exactly if there are some, their names are pairwise different and
their exact width is a 32-bit number. A schema has the name and the columns it was made of, and
every schema, be it read from a document or builtin, is one that its columns make up. Its
columns are laid out side by side. -/
theorem ofColumns_laidOut :
    (∀ name columns, (∃ schema, ofColumns name columns = .ok schema) ↔
      columns ≠ [] ∧ (columns.map Column.name).Nodup ∧
        (columns.map fun column => column.type.width).sum < 2 ^ 32) ∧
    (∀ name columns schema, ofColumns name columns = .ok schema ↔
      schema.name = name ∧ schema.columns = columns) ∧
    ∀ schema : Schema, schema.LaidOut := by
  refine ⟨fun name columns => ?_, fun name columns schema => ofColumns_eq_ok, laidOut⟩
  simp only [ofColumns_eq_ok]
  constructor
  · rintro ⟨schema, -, rfl⟩
    refine ⟨schema.nonempty, schema.distinct, ?_⟩
    rw [← Column.totalWidth_eq_sum]
    exact schema.narrow
  · rintro ⟨hnonempty, hdistinct, hnarrow⟩
    rw [← Column.totalWidth_eq_sum] at hnarrow
    exact ⟨⟨name, columns, hnonempty, hdistinct, hnarrow⟩, rfl, rfl⟩

/-- Columns that end at the largest 32-bit number, an empty one among them, make up a schema. One
byte more would be too wide. -/
theorem ofColumns_laidOut_widest :
    ∃ schema, ofColumns "T" [⟨"a", .char 4294967288⟩, ⟨"b", .char 0⟩, ⟨"c", .int⟩, ⟨"d", .char 3⟩] =
        .ok schema ∧ schema.LaidOut ∧ schema.rowSize = 4294967295 ∧
      schema.column? "d" = some (⟨"d", .char 3⟩, 4294967292) ∧
      ¬∃ schema, ofColumns "T" [⟨"a", .char 4294967292⟩, ⟨"c", .int⟩] = .ok schema := by
  obtain ⟨hmade, hcolumns, hlaidOut⟩ := ofColumns_laidOut
  obtain ⟨schema, hschema⟩ := (hmade "T"
    [⟨"a", .char 4294967288⟩, ⟨"b", .char 0⟩, ⟨"c", .int⟩, ⟨"d", .char 3⟩]).mpr (by decide)
  obtain ⟨-, hlisted⟩ := (hcolumns _ _ _).mp hschema
  refine ⟨schema, hschema, hlaidOut schema, ?_, ?_, ?_⟩
  · rw [(hlaidOut schema).size, hlisted]
    rfl
  · rw [column?, layout, hlisted]
    decide
  · rw [hmade]
    decide

end Schema

end Tabular
