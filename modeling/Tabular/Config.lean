import Tabular.Disk
import Tabular.Disk.Path
import Tabular.Json.Fields
import Tabular.Json.Reader
import Tabular.Storage

/-! # Configurations

A configuration says where table files live, how much of a table one query
reads, and where the catalog comes from. It is read from a JSON document whose
fields all have defaults.
-/

namespace Tabular

/-- Where a database is and how it is read. -/
structure Config where
  /-- The directory that holds one directory per database. -/
  dataDir : String
  database : String
  /-- The number of bytes that one query reads at most. -/
  chunkSize : Nat
  /-- The file of the catalog; without one the builtin catalog is used. -/
  catalogPath : Option String
  deriving DecidableEq

def checkChunkSize (size : Nat) : Outcome Unit :=
  if size = 0 ∨ maxChunkSize < size then .error (.invalidArgument (.chunkSize size)) else .ok ()

namespace Config

def default : Config := ⟨"./databases", "default", defaultChunkSize, none⟩

def databaseDir (config : Config) : String :=
  Path.join config.dataDir config.database

def tablePath (config : Config) (table : String) : String :=
  Path.join config.databaseDir table

def isDatabaseName (name : String) : Bool :=
  name != "" && !name.toList.contains '/' && !name.toList.contains '\\'

def validate (config : Config) : Outcome Unit := do
  checkChunkSize config.chunkSize
  if isDatabaseName config.database then return ()
  else .error (.invalidArgument (.databaseName config.database))

def set (config : Config) (field : String) (value : Json) : Except DocumentFault Config := do
  match field with
  | "data_dir" => return { config with dataDir := ← value.asText }
  | "database" => return { config with database := ← value.asText }
  | "chunk_size" => return { config with chunkSize := (← value.asInteger 0 Word.count).toNat }
  | _ =>
    match value with
    | .null => return { config with catalogPath := none }
    | _ => return { config with catalogPath := some (← value.asText) }

/-- Reads a configuration. Fields that are missing have their defaults. -/
def ofJson (value : Json) : Except DocumentFault Config :=
  value.foldFields ["data_dir", "database", "chunk_size", "catalog_path"] set default

/-- The configuration that a document describes; it has to be valid. -/
def ofText (text : String) : Outcome Config := do
  let document := Json.ofText text
  let config ← (ofJson document.value).mapError .serialization
  if !document.complete then .error (.serialization .malformed)
  config.validate
  return config

def ofFile {m : Type → Type} [Monad m] (disk : Disk m) (path : String) : m (Outcome Config) := do
  match ← disk.readText path with
  | .ok text => return ofText text
  | .error e => return .error e

end Config

end Tabular
