import Tabular.Error

/-! # Catalogs

A catalog holds the schemas of the known tables, each under the name of its
table, in the byte order of the names. Tables are only ever added; a name that
is taken is refused.
-/

namespace Tabular

/-- The schemas of the known tables. -/
structure Catalog where
  tables : List Schema
  sorted : tables.Pairwise fun a b => Utf8.Before a.name b.name

namespace Catalog

/-- The names of the known tables, in byte order. -/
def names (catalog : Catalog) : List String :=
  catalog.tables.map Schema.name

def size (catalog : Catalog) : Nat :=
  catalog.tables.length

def isEmpty (catalog : Catalog) : Bool :=
  catalog.tables.isEmpty

def find? (catalog : Catalog) (table : String) : Option Schema :=
  catalog.tables.find? fun schema => schema.name == table

def contains (catalog : Catalog) (table : String) : Bool :=
  (catalog.find? table).isSome

def resolve (catalog : Catalog) (table : String) : Outcome Schema :=
  match catalog.find? table with
  | some schema => .ok schema
  | none => .error (.unknownTable table)

/-- Puts a schema before the first one whose name comes after its own. -/
def insertSorted (schema : Schema) : List Schema → List Schema
  | [] => [schema]
  | first :: rest =>
    if Utf8.Before schema.name first.name then schema :: first :: rest
    else first :: insertSorted schema rest

theorem mem_insertSorted {schema other : Schema} {tables : List Schema} :
    other ∈ insertSorted schema tables ↔ other = schema ∨ other ∈ tables := by
  induction tables with
  | nil => simp [insertSorted]
  | cons first rest ih =>
      rw [insertSorted]
      split
      · simp
      · simp only [List.mem_cons, ih]
        exact or_left_comm

/-- Inserting a schema with a new name keeps the order of the names. -/
theorem insertSorted_sorted {schema : Schema} {tables : List Schema}
    (hsorted : tables.Pairwise fun a b => Utf8.Before a.name b.name)
    (hnew : schema.name ∉ tables.map Schema.name) :
    (insertSorted schema tables).Pairwise fun a b => Utf8.Before a.name b.name := by
  induction tables with
  | nil => simp [insertSorted]
  | cons first rest ih =>
      obtain ⟨hfirst, hrest⟩ := List.pairwise_cons.1 hsorted
      rw [insertSorted]
      split
      next hbefore =>
        refine List.pairwise_cons.2 ⟨fun other hother => ?_, hsorted⟩
        rcases List.mem_cons.1 hother with rfl | hother
        · exact hbefore
        · exact hbefore.trans (hfirst other hother)
      next hnot =>
        rw [List.map_cons, List.mem_cons, not_or] at hnew
        refine List.pairwise_cons.2 ⟨fun other hother => ?_, ih hrest hnew.2⟩
        rcases mem_insertSorted.1 hother with rfl | hother
        · exact Utf8.Before.connected hnew.1 hnot
        · exact hfirst other hother

def empty : Catalog := ⟨[], .nil⟩

def register (catalog : Catalog) (schema : Schema) : Outcome Catalog :=
  if htaken : schema.name ∈ catalog.names then
    .error (.invalidArgument (.tableExists schema.name))
  else .ok ⟨insertSorted schema catalog.tables, insertSorted_sorted catalog.sorted htaken⟩

def ofSchemas (schemas : List Schema) : Outcome Catalog :=
  schemas.foldlM register empty

/-- The table that is known where no catalog is given: users with their age. -/
def userTable : Schema where
  name := "User"
  columns := [⟨"id", .int⟩, ⟨"age", .int⟩]
  nonempty := by decide
  distinct := by decide
  narrow := by decide

def builtin : Catalog :=
  ⟨[userTable], List.pairwise_singleton ..⟩

end Catalog

end Tabular
