import Tabular.Disk
import Tabular.Disk.Path
import Tabular.Storage

/-! # Tables in files

A storage that keeps each table in the file of its name, directly below one
directory. A handle refers to the file: what is appended later shows in it. The
only writer adds a row at the end of a table's file.
-/

namespace Tabular

/-- The tables below a directory of a disk. -/
structure Files (m : Type → Type) where
  disk : Disk m
  root : String

/-- An open table file. -/
structure FileHandle where
  path : String
  deriving DecidableEq

/-- The path of a table's file below a directory. Only a name that is one
ordinary part of a path is accepted. -/
def Path.ofTable (root table : String) : Outcome String :=
  if isFileName table then .ok (join root table)
  else .error (.invalidArgument (.tableFileName table))

namespace Files

variable {m : Type → Type} [Monad m]

/-- Adds a row at the end of a table's file; the file and the directories above
it are made if they are missing. Parts at the end of the root that stay where they
are do not count: a root that is too long only by them is made all the same. -/
def appendRow (files : Files m) (table : String) (row : Bytes) : m (Outcome Unit) := do
  match Path.ofTable files.root table with
  | .error e => return .error e
  | .ok path =>
    match ← files.disk.makeDirectories (Path.trimmed files.root) with
    | .error fault => return .error (.io fault)
    | .ok () => return (← files.disk.append path row).mapError .io

def openTable (files : Files m) (table : String) : m (Outcome FileHandle) := do
  match Path.ofTable files.root table with
  | .error e => return .error e
  | .ok path =>
    match ← files.disk.openFile path with
    | .error fault => return .error (.ofDisk path fault)
    | .ok () => return .ok ⟨path⟩

def length (files : Files m) (handle : FileHandle) : m (Outcome Nat) :=
  return (← files.disk.size handle.path).mapError .io

/-- Reads a chunk of an open file. One byte more than asked for is read, to see
whether the file goes on. -/
def readChunk (files : Files m) (handle : FileHandle) (offset size : Nat) : m (Outcome Chunk) := do
  match ← files.disk.read handle.path offset (Word.addSaturating size 1) with
  | .error fault => return .error (.io fault)
  | .ok data => return .ok (Chunk.ofOverread offset data size)

def storage (files : Files m) : Storage m FileHandle where
  openTable := files.openTable
  readChunk := files.readChunk
  closeTable _ := return .ok ()

end Files

end Tabular
