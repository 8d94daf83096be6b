import Tabular.Chunk
import Tabular.Error

/-! # Storage

What a query needs of the place where tables are kept: to open a table, to read
a chunk of it, and to close it again. The kind of handle and the effects of the
operations are up to the storage.
-/

namespace Tabular

/-- The size of the chunk that a query reads unless told otherwise, in bytes. -/
def defaultChunkSize : Nat := 32 * 1024

/-- Chunked read access to tables. -/
structure Storage (m : Type → Type) (Handle : Type) where
  openTable : String → m (Outcome Handle)
  /-- Reads at most `size` bytes from `offset` on. -/
  readChunk : Handle → (offset size : Nat) → m (Outcome Chunk)
  closeTable : Handle → m (Outcome Unit)

/-- A storage in which every table opens and every read returns the same chunk. -/
def Storage.fixed {m : Type → Type} [Monad m] (chunk : Chunk) : Storage m Unit where
  openTable _ := return .ok ()
  readChunk _ _ _ := return .ok chunk
  closeTable _ := return .ok ()

end Tabular
