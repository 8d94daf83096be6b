import Tabular.Disk.Fault
import Tabular.Error
import Tabular.Word

/-! # Disks

What the library needs of the place where files are kept. Files are named by
paths and only ever grow. A directory can be opened and has a size, as on most
systems, but it cannot be read.
-/

namespace Tabular

/-- Access to files by path. -/
structure Disk (m : Type → Type) where
  /-- Checks that there is something at a path to read. -/
  openFile : String → m (Except DiskFault Unit)
  size : String → m (Except DiskFault Nat)
  /-- Reads at most `limit` bytes of a file from `offset` on. -/
  read : String → (offset limit : Nat) → m (Except DiskFault Bytes)
  /-- Makes a directory and those above it, as far as they are missing. -/
  makeDirectories : String → m (Except DiskFault Unit)
  /-- Adds bytes at the end of a file, which is made if it is missing. -/
  append : String → Bytes → m (Except DiskFault Unit)

namespace Disk

variable {m : Type → Type} [Monad m]

def readText (disk : Disk m) (path : String) : m (Outcome String) := do
  match ← disk.openFile path with
  | .error fault => return .error (.ofDisk path fault)
  | .ok () =>
    match ← disk.read path 0 Word.max with
    | .error fault => return .error (.io fault)
    | .ok bytes =>
      match Utf8.decode bytes with
      | .ok text => return .ok text
      | .error _ => return .error (.io .notText)

end Disk

end Tabular
