import Tabular.Catalog
import Tabular.Query
import Tabular.Script
import Tabular.Storage

/-! # Query engines

An engine runs statements against the tables of a storage that a catalog
describes. A selection reads one chunk from the start of its table and nothing
more. Everything that can be checked without the storage is checked before the
table is opened, and an open table is closed again whether or not it could be
read. A script is parsed as a whole before its first statement is run.

A selection that saw only the first chunk of a larger table warns of it, as the last thing that
it does. Every operation is defined with its warnings, and there is its outcome without them. What
a log shows besides warnings is left out, and so are the time and the layout of its lines.
-/

namespace Tabular

/-- A catalog, a storage, and how much of a table one query reads. -/
structure Engine (m : Type → Type) (Handle : Type) where
  catalog : Catalog
  storage : Storage m Handle
  chunkSize : Nat

/-- The result of a selection holds the rows of the first chunk only, as the table is larger. -/
structure Warning where
  table : String
  chunkSize : Nat
  deriving DecidableEq

namespace Warning

def message (warning : Warning) : String :=
  "table is larger than one chunk; result holds only the first chunk's rows table=" ++
    warning.table ++ " chunk_size=" ++ Text.ofNat warning.chunkSize

end Warning

/-- What a selection warns of once it has a result. -/
def QueryResult.warnings (result : QueryResult) (table : String) (chunkSize : Nat) :
    List Warning :=
  if result.truncated then [⟨table, chunkSize⟩] else []

/-- An outcome with the warnings that were given on the way to it. -/
structure Warned (α : Type) where
  warnings : List Warning
  outcome : Outcome α

def Warned.failed {α : Type} (e : Error) : Warned α :=
  ⟨[], .error e⟩

namespace Engine

variable {m : Type → Type} [Monad m] {Handle : Type}

/-- The first chunk of a table: opened, read and closed again. -/
def readTable (engine : Engine m Handle) (table : String) : m (Outcome Chunk) := do
  match ← engine.storage.openTable table with
  | .error e => return .error e
  | .ok handle =>
    let chunk ← engine.storage.readChunk handle 0 engine.chunkSize
    match ← engine.storage.closeTable handle with
    | .error e => return .error e
    | .ok () => return chunk

/-- Runs a selection from a table whose schema is given. -/
def warnedSelectWith (engine : Engine m Handle) (schema : Schema) (selection : Selection) :
    m (Warned QueryResult) := do
  match Plan.ofSelection engine.chunkSize schema selection with
  | .error e => return .failed e
  | .ok plan =>
    match (← engine.readTable selection.table) >>= plan.scan with
    | .error e => return .failed e
    | .ok result => return ⟨result.warnings selection.table engine.chunkSize, .ok result⟩

def warnedSelect (engine : Engine m Handle) (selection : Selection) : m (Warned QueryResult) := do
  match engine.catalog.resolve selection.table with
  | .error e => return .failed e
  | .ok schema => engine.warnedSelectWith schema selection

def warnedExecute (engine : Engine m Handle) : Statement → m (Warned QueryResult)
  | .select selection => engine.warnedSelect selection
  | .unsupported command => return .failed (.unsupportedCommand command)

/-- Runs statements up to the first one that fails. The warnings of those before it were given
nevertheless. -/
def warnedExecuteAll (engine : Engine m Handle) : List Statement → m (Warned (List QueryResult))
  | [] => return ⟨[], .ok []⟩
  | statement :: rest => do
    let first ← engine.warnedExecute statement
    match first.outcome with
    | .error e => return ⟨first.warnings, .error e⟩
    | .ok result =>
      let others ← engine.warnedExecuteAll rest
      return ⟨first.warnings ++ others.warnings, others.outcome.map (result :: ·)⟩

def warnedRun (engine : Engine m Handle) (script : String) : m (Warned (List QueryResult)) := do
  match Script.parse script with
  | .error e => return .failed (.parse e)
  | .ok statements => engine.warnedExecuteAll statements

def selectWith (engine : Engine m Handle) (schema : Schema) (selection : Selection) :
    m (Outcome QueryResult) :=
  Warned.outcome <$> engine.warnedSelectWith schema selection

def select (engine : Engine m Handle) (selection : Selection) : m (Outcome QueryResult) :=
  Warned.outcome <$> engine.warnedSelect selection

def execute (engine : Engine m Handle) (statement : Statement) : m (Outcome QueryResult) :=
  Warned.outcome <$> engine.warnedExecute statement

def executeAll (engine : Engine m Handle) (statements : List Statement) :
    m (Outcome (List QueryResult)) :=
  Warned.outcome <$> engine.warnedExecuteAll statements

def run (engine : Engine m Handle) (script : String) : m (Outcome (List QueryResult)) :=
  Warned.outcome <$> engine.warnedRun script

end Engine

end Tabular
