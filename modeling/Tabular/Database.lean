import Tabular.Catalog.Document
import Tabular.Engine
import Tabular.Storage.Files

/-! # Databases

A database is a directory of table files with the catalog that describes them.
Rows can be appended to its tables, and scripts can be run over them.
-/

namespace Tabular

/-- A configuration and the catalog that it names, on some disk. -/
structure Database (m : Type → Type) where
  disk : Disk m
  config : Config
  catalog : Catalog

namespace Database

variable {m : Type → Type} [Monad m]

def readCatalog (disk : Disk m) (path : String) : m (Outcome Catalog) := do
  match ← disk.readText path with
  | .ok text => return Catalog.ofText text
  | .error e => return .error e

/-- The database of a configuration, with the catalog named there or else
the builtin one. -/
def ofConfig (disk : Disk m) (config : Config) : m (Outcome (Database m)) := do
  match config.validate with
  | .error e => return .error e
  | .ok () =>
    match config.catalogPath with
    | none => return .ok ⟨disk, config, Catalog.builtin⟩
    | some path => return (← readCatalog disk path).map fun catalog => ⟨disk, config, catalog⟩

def files (database : Database m) : Files m :=
  ⟨database.disk, database.config.databaseDir⟩

def engine (database : Database m) : Engine m FileHandle :=
  ⟨database.catalog, database.files.storage, database.config.chunkSize⟩

def schema (database : Database m) (table : String) : Outcome Schema :=
  database.catalog.resolve table

def warnedExecute (database : Database m) (script : String) : m (Warned (List QueryResult)) :=
  database.engine.warnedRun script

def execute (database : Database m) (script : String) : m (Outcome (List QueryResult)) :=
  database.engine.run script

/-- Runs a script for the result of its last statement. -/
def query (database : Database m) (script : String) : m (Outcome QueryResult) := do
  return (← database.execute script).map fun results => results.getLast?.getD .empty

/-- Appends a row to a table. The values are checked and encoded before the
table's file is touched. -/
def append (database : Database m) (table : String) (values : List (String × Value)) :
    m (Outcome Unit) := do
  match (do Row.encode (← database.schema table) values) with
  | .error e => return .error e
  | .ok row => database.files.appendRow table row

end Database

end Tabular
