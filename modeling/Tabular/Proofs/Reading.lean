import Tabular.Disk.Tree
import Tabular.Proofs.Chunk
import Tabular.Storage.Files
import Tabular.Storage.Memory

/-! # Reading tables

Tables are kept in memory or in the files of a tree. What one reads of a table,
from opening it to closing it again, is a chunk of its content in both, and
nothing changes by it.
-/

namespace Tabular

/-- Opens a table, reads a chunk of it, and closes it again. -/
def Storage.readOnce {m : Type → Type} [Monad m] {Handle : Type} (storage : Storage m Handle)
    (table : String) (offset size : Nat) : m (Outcome Chunk) := do
  match ← storage.openTable table with
  | .error e => return .error e
  | .ok handle =>
    let chunk ← storage.readChunk handle offset size
    match ← storage.closeTable handle with
    | .error e => return .error e
    | .ok () => return chunk

namespace Memory

theorem chunkOf_eq_ofContent {content : Bytes} {offset size : Nat}
    (hword : content.length ≤ Word.max ∨ offset + size < Word.max) :
    chunkOf content offset size = Chunk.ofContent content offset size := by
  have hdrop : content.drop (min offset content.length) = content.drop offset := by
    rw [← List.drop_eq_drop_min]
  rw [chunkOf, hdrop]
  rcases Nat.le_total content.length offset with hpast | hin
  · rw [List.drop_eq_nil_of_le hpast, List.take_nil, ← List.take_nil (i := size + 1),
      ← List.drop_eq_nil_of_le hpast]
    exact Chunk.ofOverread_eq_ofContent (.inl (by omega)) (by omega)
  · apply Chunk.ofOverread_eq_ofContent
    · simp only [Word.addSaturating]
      omega
    · omega

theorem readChunk_run {content : Bytes} (hword : content.length ≤ Word.max)
    (offset size : Nat) (memory : Memory) :
    (storage.readChunk content offset size).run memory =
      (.ok (Chunk.ofContent content offset size), memory) := by
  change (Except.ok (chunkOf content offset size), memory) = _
  rw [chunkOf_eq_ofContent (.inl hword)]

theorem openTable_run {memory : Memory} {table : String} {content : Bytes}
    (hcontent : memory.content? table = some content) :
    (storage.openTable table).run memory = (.ok content, memory) := by
  simp only [storage, StateT.run_bind]
  simp [hcontent]
  rfl

/-- The table in memory, from opening it to closing it again. -/
theorem readOnce_run (memory : Memory) (table : String) (offset size : Nat) :
    (storage.readOnce table offset size).run memory =
      (match memory.content? table with
        | some content => .ok (chunkOf content offset size)
        | none => .error (.fileNotFound table), memory) := by
  rw [Storage.readOnce, StateT.run_bind]
  cases hcontent : memory.content? table <;> simp [storage, hcontent] <;> rfl

end Memory

namespace FileTree

theorem read_eq {tree : FileTree} {path : String} {content : Bytes}
    (hfile : tree.find path = .ok (.file content)) {offset : Nat}
    (hoffset : offset < 0x8000000000000000) (limit : Nat) :
    tree.read path offset limit = .ok ((content.drop offset).take limit) := by
  rw [read, hfile]
  change (if 0x8000000000000000 ≤ offset then _ else _) = _
  rw [if_neg (by omega)]

theorem disk_openFile_run (tree : FileTree) (path : String) :
    (disk.openFile path).run tree = ((tree.find path).map fun _ => (), tree) :=
  rfl

theorem disk_read_run (tree : FileTree) (path : String) (offset limit : Nat) :
    (disk.read path offset limit).run tree = (tree.read path offset limit, tree) :=
  rfl

end FileTree

namespace Files

theorem readChunk_run {tree : FileTree} {root : String} {handle : FileHandle} {content : Bytes}
    (hfile : tree.find handle.path = .ok (.file content)) (hword : content.length ≤ Word.max)
    {offset : Nat} (hoffset : offset < 0x8000000000000000) (size : Nat) :
    ((storage ⟨FileTree.disk, root⟩).readChunk handle offset size).run tree =
      (.ok (Chunk.ofContent content offset size), tree) := by
  have hread : (FileTree.disk.read handle.path offset (Word.addSaturating size 1)).run tree =
      (.ok ((content.drop offset).take (Word.addSaturating size 1)), tree) := by
    rw [FileTree.disk_read_run, FileTree.read_eq hfile hoffset]
  rw [show (storage ⟨FileTree.disk, root⟩).readChunk handle offset size =
    readChunk ⟨FileTree.disk, root⟩ handle offset size from rfl, readChunk, StateT.run_bind, hread]
  change (Except.ok (Chunk.ofOverread _ _ _), tree) = _
  rw [Chunk.ofOverread_eq_ofContent]
  · unfold Word.addSaturating
    omega
  · omega

/-- The file of a table, from opening it to closing it again. -/
theorem readOnce_run (tree : FileTree) (root table : String) (offset size : Nat) :
    (Storage.readOnce (storage ⟨FileTree.disk, root⟩) table offset size).run tree =
      (match Path.ofTable root table with
        | .error e => .error e
        | .ok path =>
          match tree.find path with
          | .error fault => .error (.ofDisk path fault)
          | .ok _ =>
            match tree.read path offset (Word.addSaturating size 1) with
            | .error fault => .error (.io fault)
            | .ok data => .ok (Chunk.ofOverread offset data size), tree) := by
  simp only [Storage.readOnce, storage, openTable, readChunk]
  cases Path.ofTable root table with
  | error e => rfl
  | ok path =>
      cases hfind : tree.find path with
      | error fault =>
          simp [FileTree.disk, hfind, Except.map]
          rfl
      | ok node =>
          cases hread : tree.read path offset (Word.addSaturating size 1) <;>
            simp [FileTree.disk, hfind, hread, Except.map] <;> rfl

end Files

/-- The storage is in memory or in the files below a root, and the table of a name
has some content in it. -/
inductive Storage.Keeps : {σ Handle : Type} → Storage (StateM σ) Handle → σ → String → Bytes → Prop
  | memory {memory : Memory} {table : String} {content : Bytes}
    (hcontent : memory.content? table = some content) :
    Keeps Memory.storage memory table content
  | files {tree : FileTree} {root table path : String} {content : Bytes}
    (hpath : Path.ofTable root table = .ok path) (hfile : tree.find path = .ok (.file content)) :
    Keeps (Files.storage ⟨FileTree.disk, root⟩) tree table content

/-- What is read of a table is the chunk of its content. -/
theorem Storage.Keeps.readOnce_run {σ Handle : Type} {storage : Storage (StateM σ) Handle}
    {state : σ} {table : String} {content : Bytes} (hkeeps : storage.Keeps state table content)
    {offset size : Nat} (hoffset : offset < 0x8000000000000000)
    (hword : content.length ≤ Word.max ∨ offset + size < Word.max) :
    (storage.readOnce table offset size).run state =
      (.ok (Chunk.ofContent content offset size), state) := by
  cases hkeeps with
  | memory hcontent =>
      rw [Memory.readOnce_run, hcontent]
      simp only [Memory.chunkOf_eq_ofContent hword]
  | files hpath hfile =>
      rw [Files.readOnce_run, hpath]
      simp only [hfile, FileTree.read_eq hfile hoffset]
      rw [Chunk.ofOverread_eq_ofContent]
      · simp only [Word.addSaturating]
        omega
      · omega

end Tabular
