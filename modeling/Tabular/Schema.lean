import Tabular.ColumnType

/-! # Schemas

A schema names a table and lists its columns. A row is the cells of the columns
one after the other, each as wide as its type says, so a schema also fixes the
offset of every column and the size of a row. The list is not empty, no two
columns share a name, and the row size is a 32-bit number: a sum that is none is
refused when a schema is made, and offsets would stop at the largest one.
-/

namespace Tabular

/-- A named column of some type. -/
structure Column where
  name : String
  type : ColumnType
  deriving DecidableEq

namespace Column

def totalWidth : List Column → Nat
  | [] => 0
  | column :: rest => column.type.width + totalWidth rest

/-- The width of the columns and the bytes before them. There is none if a sum on the way
to it is no width. -/
def widthAfter? (size : Nat) (columns : List Column) : Option Nat :=
  columns.foldlM (fun sum column => ColumnType.addWidths? sum column.type.width) size

theorem widthAfter?_eq {size : Nat} (hsize : size < ColumnType.widthLimit) (columns : List Column) :
    widthAfter? size columns =
      if size + totalWidth columns < ColumnType.widthLimit then some (size + totalWidth columns)
      else none := by
  induction columns generalizing size with
  | nil => exact (if_pos hsize).symm
  | cons column rest ih =>
      rw [widthAfter?, List.foldlM_cons, ColumnType.addWidths?, totalWidth, ← Nat.add_assoc]
      split
      next hnext => exact ih hnext
      next hwide =>
        rw [if_neg (by omega)]
        rfl

/-- Lays the columns out one after the other, the first of them at an offset. The columns
come with their offsets, followed by the end of the last one. -/
def layOut (offset : Nat) : List Column → List (Column × Nat) × Nat
  | [] => ([], offset)
  | column :: rest =>
    let laidOut := layOut (ColumnType.addWidthsSaturating offset column.type.width) rest
    ((column, offset) :: laidOut.1, laidOut.2)

end Column

/-- The first name that is among those seen before or repeats an earlier one. -/
def firstRepeatAfter (seen : List String) : List String → Option String
  | [] => none
  | name :: rest => if name ∈ seen then some name else firstRepeatAfter (name :: seen) rest

/-- The first name that repeats an earlier one. -/
def firstRepeat? (names : List String) : Option String :=
  firstRepeatAfter [] names

theorem firstRepeatAfter_eq_none {seen names : List String}
    (hnone : firstRepeatAfter seen names = none) :
    names.Nodup ∧ ∀ name ∈ names, name ∉ seen := by
  induction names generalizing seen with
  | nil => simp
  | cons name rest ih =>
      rw [firstRepeatAfter] at hnone
      split at hnone
      · cases hnone
      next hseen =>
        obtain ⟨hrest, hfresh⟩ := ih hnone
        refine ⟨List.nodup_cons.2 ⟨fun hmem => ?_, hrest⟩, fun other hother => ?_⟩
        · exact hfresh name hmem (List.mem_cons_self ..)
        · rcases List.mem_cons.1 hother with rfl | hother
          · exact hseen
          · exact fun hmem => hfresh other hother (List.mem_cons_of_mem _ hmem)

/-- Names without a repeat are pairwise different. -/
theorem nodup_of_firstRepeat?_eq_none {names : List String} (hnone : firstRepeat? names = none) :
    names.Nodup :=
  (firstRepeatAfter_eq_none hnone).1

/-- A table's name and columns. -/
structure Schema where
  name : String
  columns : List Column
  nonempty : columns ≠ []
  distinct : (columns.map Column.name).Nodup
  narrow : Column.totalWidth columns < ColumnType.widthLimit
  deriving DecidableEq

namespace Schema

/-- Why a list of columns is no schema. -/
inductive Fault
  | noColumns (table : String)
  | duplicateColumn (column table : String)
  | tooWide (table : String)
  deriving DecidableEq

def Fault.message : Fault → String
  | noColumns table => "Table '" ++ table ++ "' has no columns"
  | duplicateColumn column table => "Duplicate column '" ++ column ++ "' in table '" ++ table ++ "'"
  | tooWide table => "Row of table '" ++ table ++ "' is too wide"

theorem narrow_of_widthAfter? {columns : List Column} {size : Nat}
    (hsize : Column.widthAfter? 0 columns = some size) :
    Column.totalWidth columns < ColumnType.widthLimit := by
  rw [Column.widthAfter?_eq (by decide)] at hsize
  split at hsize
  next hnarrow => simpa using hnarrow
  next => cases hsize

/-- The schema of a table with the given columns. An empty list is reported
first, then the first repeated name, then a row that is too wide. -/
def ofColumns (name : String) (columns : List Column) : Except Fault Schema :=
  if hempty : columns = [] then .error (.noColumns name)
  else
    match hrepeat : firstRepeat? (columns.map Column.name) with
    | some column => .error (.duplicateColumn column name)
    | none =>
      match hwidth : Column.widthAfter? 0 columns with
      | some _ =>
        .ok ⟨name, columns, hempty, nodup_of_firstRepeat?_eq_none hrepeat,
          narrow_of_widthAfter? hwidth⟩
      | none => .error (.tooWide name)

def rowSize (schema : Schema) : Nat :=
  (Column.layOut 0 schema.columns).2

def layout (schema : Schema) : List (Column × Nat) :=
  (Column.layOut 0 schema.columns).1

def columnNames (schema : Schema) : List String :=
  schema.columns.map Column.name

def column? (schema : Schema) (name : String) : Option (Column × Nat) :=
  schema.layout.find? fun entry => entry.1.name == name

end Schema

end Tabular
