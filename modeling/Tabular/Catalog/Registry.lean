import Tabular.Catalog.Document

/-! # Tables in no particular order

A registry holds the schemas of the known tables as a hash map does: each under the name of its
table, in whatever order they come to lie. Only where the tables are listed or written are they
put in the byte order of their names, with one sort for each of the two. A catalog is the
registry that is sorted from the start.
-/

namespace Tabular

/-- The schemas of the known tables, each under its own name. -/
structure Registry where
  tables : List Schema
  distinct : (tables.map Schema.name).Nodup

namespace Registry

def empty : Registry := ⟨[], .nil⟩

def builtin : Registry :=
  ⟨[Catalog.userTable], List.pairwise_singleton ..⟩

def size (registry : Registry) : Nat :=
  registry.tables.length

def isEmpty (registry : Registry) : Bool :=
  registry.tables.isEmpty

def find? (registry : Registry) (table : String) : Option Schema :=
  registry.tables.find? fun schema => schema.name == table

def contains (registry : Registry) (table : String) : Bool :=
  (registry.find? table).isSome

def resolve (registry : Registry) (table : String) : Outcome Schema :=
  match registry.find? table with
  | some schema => .ok schema
  | none => .error (.unknownTable table)

def register (registry : Registry) (schema : Schema) : Outcome Registry :=
  if htaken : schema.name ∈ registry.tables.map Schema.name then
    .error (.invalidArgument (.tableExists schema.name))
  else .ok ⟨schema :: registry.tables, List.nodup_cons.2 ⟨htaken, registry.distinct⟩⟩

/-- One text is the other or comes before it in byte order. -/
def upTo (a b : String) : Bool :=
  !decide (Utf8.Before b a)

def byName (a b : Schema) : Bool :=
  upTo a.name b.name

/-- The names of the known tables, sorted. -/
def listTables (registry : Registry) : List String :=
  (registry.tables.map Schema.name).mergeSort upTo

/-- The registry as a text in JSON, with the tables sorted by their names. -/
def toText (registry : Registry) : String :=
  (Catalog.document (registry.tables.mergeSort byName)).pretty

def ofText (text : String) : Outcome Registry := do
  let schemas ← (Catalog.readSchemas text).mapError .serialization
  schemas.foldlM register empty

end Registry

end Tabular
