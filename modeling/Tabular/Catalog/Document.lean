import Tabular.Catalog
import Tabular.Json.Fields
import Tabular.Json.Printer
import Tabular.Json.Reader

/-! # Catalogs in JSON

A catalog is written as `{"tables": […]}`, a table as its name and columns, and
a column as its name and the text of its type. All tables of a document are
read, in the order of the text, before the first of them is added to a catalog.
-/

namespace Tabular

namespace Column

def toJson (column : Column) : Json :=
  .ofEntries [("name", .string column.name), ("type", .string column.type.name)]

/-- The fields of a column as far as they have been read. -/
structure Draft where
  name : Option String
  type : Option ColumnType

def Draft.set (draft : Draft) (field : String) (value : Json) : Except DocumentFault Draft := do
  let text ← value.asText
  if field = "name" then return { draft with name := some text }
  else
    match ColumnType.ofText text with
    | .ok type => return { draft with type := some type }
    | .error error => .error (.columnType error)

def ofJson (value : Json) : Except DocumentFault Column := do
  let draft ← value.foldFields ["name", "type"] Draft.set ⟨none, none⟩
  return ⟨← Json.required draft.name, ← Json.required draft.type⟩

end Column

namespace Schema

def toJson (schema : Schema) : Json :=
  .ofEntries
    [("name", .string schema.name), ("columns", .array (schema.columns.map Column.toJson))]

/-- The fields of a schema as far as they have been read. -/
structure Draft where
  name : Option String
  columns : Option (List Column)

def Draft.set (draft : Draft) (field : String) (value : Json) : Except DocumentFault Draft := do
  if field = "name" then return { draft with name := some (← value.asText) }
  else return { draft with columns := some (← value.asList Column.ofJson) }

/-- Reads a schema. Its columns are checked when it has been read to its end. -/
def ofJson (value : Json) : Except DocumentFault Schema := do
  let draft ← value.foldFields ["name", "columns"] Draft.set ⟨none, none⟩
  let name ← Json.required draft.name
  let columns ← Json.required draft.columns
  (ofColumns name columns).mapError .schema

end Schema

namespace Catalog

/-- The document that lists schemas in their order. -/
def document (schemas : List Schema) : Json :=
  .ofEntries [("tables", .array (schemas.map Schema.toJson))]

/-- The catalog as a JSON value, with the tables in byte order of their names. -/
def toJson (catalog : Catalog) : Json :=
  document catalog.tables

def toText (catalog : Catalog) : String :=
  catalog.toJson.pretty

def setTables (_ : Option (List Schema)) (_ : String) (value : Json) :
    Except DocumentFault (Option (List Schema)) :=
  (value.asList Schema.ofJson).map some

/-- The tables of a document, in the order of its text. -/
def readSchemas (text : String) : Except DocumentFault (List Schema) := do
  let document := Json.ofText text
  let draft ← document.value.foldFields ["tables"] setTables none
  let schemas ← Json.required draft
  if document.complete then return schemas else .error .malformed

def ofText (text : String) : Outcome Catalog := do
  let schemas ← (readSchemas text).mapError .serialization
  ofSchemas schemas

end Catalog

end Tabular
