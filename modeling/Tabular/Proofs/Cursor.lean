import Mathlib.Algebra.Order.Floor.Div
import Tabular.Proofs.Appending
import Tabular.Proofs.Reading

/-! # Following a cursor

A table is read piece by piece: each chunk says where the next one starts, or that
there is none. Whatever is appended in between, the chunks make up the beginning of
what the handle shows of the table, and all of it once the last chunk has been read.
Tables in memory are shown as they were when they were opened, files as they are.
-/

namespace Tabular

/-- One step while a table is read piece by piece. -/
inductive CursorStep
  | append (table : String) (row : Bytes)
  /-- Reads the next chunk, of at most `size` bytes. -/
  | read (size : Nat)
  deriving DecidableEq

namespace CursorStep

/-- How many bytes a step may add to a table. -/
def bytesFor (table : String) : CursorStep → Nat
  | append other row => if other = table then row.length else 0
  | read _ => 0

def totalFor (table : String) : List CursorStep → Nat
  | [] => 0
  | step :: rest => step.bytesFor table + totalFor table rest

end CursorStep

/-- How far a table has been read. -/
structure Cursor where
  /-- The data of the chunks so far, one after the other. -/
  bytes : Bytes
  /-- Where the next chunk starts, if there is one. -/
  next : Option Nat
  deriving DecidableEq

namespace Cursor

def start : Cursor := ⟨[], some 0⟩

def advance (cursor : Cursor) (chunk : Chunk) : Cursor :=
  ⟨cursor.bytes ++ chunk.data, chunk.nextOffset⟩

/-- What has been read is the beginning of a content, up to where the next chunk
starts, and it is all of the content if there is no next chunk. -/
structure Within (cursor : Cursor) (content : Bytes) : Prop where
  bytes : cursor.bytes <+: content
  next : ∀ offset ∈ cursor.next, offset = cursor.bytes.length
  ended : cursor.next = none → cursor.bytes = content

variable {cursor : Cursor} {content : Bytes} {offset : Nat}

theorem start_within (content : Bytes) : start.Within content where
  bytes := List.nil_prefix
  next offset hnext := by
    cases hnext
    rfl
  ended := nofun

theorem Within.offset_le (hwithin : cursor.Within content) (hnext : cursor.next = some offset) :
    offset ≤ content.length := by
  rw [hwithin.next offset hnext]
  exact hwithin.bytes.length_le

/-- The next chunk continues what has been read, without a gap and without an
overlap. -/
theorem Within.advance (hwithin : cursor.Within content) (hnext : cursor.next = some offset)
    (size : Nat) : (cursor.advance (Chunk.ofContent content offset size)).Within content := by
  have hbytes : cursor.bytes = content.take offset := by
    rw [hwithin.next offset hnext]
    exact List.prefix_iff_eq_take.mp hwithin.bytes
  have hread : (cursor.advance (Chunk.ofContent content offset size)).bytes =
      content.take (offset + size) := by
    rw [Cursor.advance, Chunk.ofContent_data, hbytes, List.take_add]
  constructor
  · rw [hread]
    exact List.take_prefix ..
  · intro following hfollowing
    obtain ⟨hmore, rfl⟩ := Chunk.ofContent_nextOffset_eq_some.mp hfollowing
    rw [hread, List.length_take]
    omega
  · intro hended
    rw [hread]
    exact List.take_of_length_le (Chunk.ofContent_nextOffset_eq_none.mp hended)

/-- Bytes that are added to the content come after what has been read. -/
theorem Within.append (hwithin : cursor.Within content) (hnext : cursor.next = some offset)
    (added : Bytes) : cursor.Within (content ++ added) where
  bytes := hwithin.bytes.trans (List.prefix_append ..)
  next := hwithin.next
  ended hended := by
    rw [hnext] at hended
    cases hended

end Cursor

namespace Storage

section

variable {m : Type → Type} [Monad m] {Handle : Type}

/-- Follows the cursor of a handle: every chunk is read from where the one before it
says that the table goes on. After the chunk that says that it does not, nothing
more is done. An append that fails makes no difference to the reader. -/
def follow (storage : Storage m Handle) (appendRow : String → Bytes → m (Outcome Unit))
    (handle : Handle) (cursor : Cursor) : List CursorStep → m (Outcome Cursor)
  | [] => return .ok cursor
  | step :: rest =>
    match cursor.next with
    | none => return .ok cursor
    | some offset =>
      match step with
      | .append table row => do
        let _ ← appendRow table row
        storage.follow appendRow handle cursor rest
      | .read size => do
        match ← storage.readChunk handle offset size with
        | .error e => return .error e
        | .ok chunk => storage.follow appendRow handle (cursor.advance chunk) rest

/-- Opens a table and follows the cursor from its start. -/
def readThrough (storage : Storage m Handle) (appendRow : String → Bytes → m (Outcome Unit))
    (table : String) (steps : List CursorStep) : m (Outcome Cursor) := do
  match ← storage.openTable table with
  | .error e => return .error e
  | .ok handle => storage.follow appendRow handle .start steps

end

variable {σ Handle : Type} {storage : Storage (StateM σ) Handle}
  {appendRow : String → Bytes → StateM σ (Outcome Unit)} {handle : Handle} {table : String}

/-- A handle shows a content at each state: chunks of it are read, and an append to
any table at most adds bytes to it. There is room for a number of bytes that may
still be added to the table. -/
structure Shows (storage : Storage (StateM σ) Handle)
    (appendRow : String → Bytes → StateM σ (Outcome Unit)) (handle : Handle) (table : String)
    (shown : σ → (room : Nat) → Bytes → Prop) : Prop where
  read : ∀ {state room content offset}, shown state room content → offset ≤ content.length →
    ∀ size, (storage.readChunk handle offset size).run state =
      (.ok (Chunk.ofContent content offset size), state)
  append : ∀ {state room content other row},
    shown state ((CursorStep.append other row).bytesFor table + room) content →
      ∃ added, shown ((appendRow other row).run state).2 room (content ++ added)

variable {shown : σ → Nat → Bytes → Prop} {state : σ} {cursor : Cursor} {content : Bytes}

/-- A reader that follows the cursor has always read the beginning of what is shown,
and all of it once there is no next chunk. -/
theorem Shows.follow_run (hshows : storage.Shows appendRow handle table shown)
    {steps : List CursorStep} (hshown : shown state (CursorStep.totalFor table steps) content)
    (hwithin : cursor.Within content) :
    ∃ final after room added, (storage.follow appendRow handle cursor steps).run state =
      (.ok final, after) ∧ shown after room (content ++ added) ∧ final.Within (content ++ added) := by
  induction steps generalizing state cursor content with
  | nil => exact ⟨cursor, state, _, [], rfl, by simpa using hshown, by simpa using hwithin⟩
  | cons step rest ih =>
      rw [follow]
      cases hnext : cursor.next with
      | none => exact ⟨cursor, state, _, [], rfl, by simpa using hshown, by simpa using hwithin⟩
      | some offset =>
          cases step with
          | append other row =>
              obtain ⟨added, hadded⟩ := hshows.append hshown
              obtain ⟨final, after, room, more, hrun, hafter, hfinal⟩ :=
                ih hadded (hwithin.append hnext added)
              rw [List.append_assoc] at hafter hfinal
              exact ⟨final, after, room, added ++ more, hrun, hafter, hfinal⟩
          | read size =>
              have hread := hshows.read hshown (hwithin.offset_le hnext) size
              rw [CursorStep.totalFor, CursorStep.bytesFor, Nat.zero_add] at hshown
              simp only [StateT.run_bind, hread]
              exact ih hshown (hwithin.advance hnext size)

/-- Chunks of one size come to the end of what is shown after as many of them as it
takes to cover the rest. -/
theorem Shows.follow_ends (hshows : storage.Shows appendRow handle table shown) {room : Nat}
    (hshown : shown state room content) (hwithin : cursor.Within content) {size count : Nat}
    (hcount : ∀ offset ∈ cursor.next, 0 < count ∧ content.length ≤ offset + size * count) :
    ∃ final, (storage.follow appendRow handle cursor (List.replicate count (.read size))).run state =
      (.ok final, state) ∧ final.next = none := by
  induction count generalizing cursor with
  | zero =>
      refine ⟨cursor, rfl, ?_⟩
      cases hnext : cursor.next with
      | none => rfl
      | some offset => exact absurd (hcount offset hnext).1 (Nat.lt_irrefl 0)
  | succ count ih =>
      rw [List.replicate_succ, follow]
      cases hnext : cursor.next with
      | none => exact ⟨cursor, rfl, hnext⟩
      | some offset =>
          have hlength := (hcount offset hnext).2
          simp only [StateT.run_bind, hshows.read hshown (hwithin.offset_le hnext) size]
          apply ih (hwithin.advance hnext size)
          intro following hfollowing
          obtain ⟨hmore, rfl⟩ := Chunk.ofContent_nextOffset_eq_some.mp hfollowing
          rw [Nat.mul_succ] at hlength
          -- This chunk has not covered the rest, so that it was not the last one.
          refine ⟨Nat.pos_of_ne_zero fun hzero => ?_, by omega⟩
          rw [hzero, Nat.mul_zero] at hlength
          omega

end Storage

namespace Memory

/-- The tables in memory as a storage that rows can be appended to. -/
def append (table : String) (row : Bytes) : StateM Memory (Outcome Unit) :=
  modifyGet fun memory => (.ok (), memory.appendRow table row)

/-- What a handle in memory shows, whatever is appended: the content that it was opened
with. -/
def Snapshot (content : Bytes) (_ : Memory) (_ : Nat) (shown : Bytes) : Prop :=
  shown = content

theorem shows_snapshot {content : Bytes} (hword : content.length ≤ Word.max) (table : String) :
    storage.Shows append content table (Snapshot content) where
  read := by
    rintro memory room shown offset rfl -
    exact fun size => readChunk_run hword offset size memory
  append := by
    rintro memory room shown other row rfl
    exact ⟨[], List.append_nil shown⟩

end Memory

namespace Files

variable {tree : FileTree} {root table : String} {content : Bytes}

/-- What is appended to any table at most adds bytes to the file of a table. -/
theorem find_of_appendRow (hname : Path.isFileName table = true)
    (hfile : tree.find (Path.join root table) = .ok (.file content)) (other : String) (row : Bytes) :
    ∃ added, added.length ≤ (CursorStep.append other row).bytesFor table ∧
      ((appendRow ⟨FileTree.disk, root⟩ other row).run tree).2.find (Path.join root table) =
        .ok (.file (content ++ added)) := by
  have hstores : tree.Stores (Path.join root table) [content] := .file (by simpa using hfile)
  rcases hrun : (appendRow ⟨FileTree.disk, root⟩ other row).run tree with ⟨⟨e⟩ | ⟨⟨⟩⟩, after⟩
  · have hafter := hstores.of_onlyMakes (onlyMakes_of_appendRow hrun)
    exact ⟨[], Nat.zero_le _, by simpa using hafter.find (by simp)⟩
  · by_cases hother : other = table
    · subst hother
      have hafter := stores_of_appendRow hstores hrun
      exact ⟨row, by simp [CursorStep.bytesFor], by simpa using hafter.find (by simp)⟩
    · have hafter := stores_of_appendRow_other hstores hname hother hrun
      exact ⟨[], Nat.zero_le _, by simpa using hafter.find (by simp)⟩

/-- What the handle of a table's file shows: the content of the file, with room up to
the largest offset. -/
def Live (root table : String) (tree : FileTree) (room : Nat) (shown : Bytes) : Prop :=
  tree.find (Path.join root table) = .ok (.file shown) ∧ shown.length + room < 0x8000000000000000

theorem shows_live (hname : Path.isFileName table = true) :
    (storage ⟨FileTree.disk, root⟩).Shows (appendRow ⟨FileTree.disk, root⟩)
      ⟨Path.join root table⟩ table (Live root table) where
  read := by
    rintro tree room content offset ⟨hfile, hroom⟩ hoffset size
    have hword : content.length ≤ Word.max := by
      unfold Word.max Word.count
      omega
    exact readChunk_run hfile hword (by omega) size
  append := by
    rintro tree room content other row ⟨hfile, hroom⟩
    obtain ⟨added, hadded, hafter⟩ := find_of_appendRow hname hfile other row
    refine ⟨added, hafter, ?_⟩
    rw [List.length_append]
    omega

theorem openTable_run (hname : Path.isFileName table = true)
    (hfile : tree.find (Path.join root table) = .ok (.file content)) :
    ((storage ⟨FileTree.disk, root⟩).openTable table).run tree =
      (.ok ⟨Path.join root table⟩, tree) := by
  have hpath : Path.ofTable root table = .ok (Path.join root table) := ofTable_eq_ok.mpr ⟨hname, rfl⟩
  simp only [storage, openTable, hpath]
  simp [FileTree.disk, hfile, Except.map]
  rfl

end Files

/-- Chunks of one size cover some content if there are enough of them. -/
theorem length_le_mul_ceilDiv (content : Bytes) {size : Nat} (hsize : 0 < size) :
    content.length ≤ size * max 1 (content.length ⌈/⌉ size) := by
  have hcover : content.length ≤ size • (content.length ⌈/⌉ size) := le_smul_ceilDiv hsize
  exact hcover.trans (Nat.mul_le_mul_left size (Nat.le_max_right ..))

section

variable {σ Handle : Type} {storage : Storage (StateM σ) Handle}
  {appendRow : String → Bytes → StateM σ (Outcome Unit)} {handle : Handle} {table : String}
  {shown : σ → Nat → Bytes → Prop} {state : σ} {content : Bytes}

theorem Storage.readThrough_run (hopen : (storage.openTable table).run state = (.ok handle, state))
    (steps : List CursorStep) :
    (storage.readThrough appendRow table steps).run state =
      (storage.follow appendRow handle .start steps).run state := by
  rw [readThrough, StateT.run_bind, hopen]
  rfl

theorem Storage.Shows.readThrough_ends (hshows : storage.Shows appendRow handle table shown)
    (hopen : (storage.openTable table).run state = (.ok handle, state)) {room : Nat}
    (hshown : shown state room content) {size : Nat} (hsize : 0 < size) :
    ∃ cursor, (storage.readThrough appendRow table
      (List.replicate (max 1 (content.length ⌈/⌉ size)) (.read size))).run state =
        (.ok cursor, state) ∧ cursor.next = none := by
  rw [readThrough_run hopen]
  apply hshows.follow_ends hshown (Cursor.start_within content)
  intro offset hoffset
  cases hoffset
  rw [Nat.zero_add]
  exact ⟨Nat.le_max_left .., length_le_mul_ceilDiv content hsize⟩

end

/-- A reader that opens a table and follows the cursor reads every byte once, whatever
is appended to any tables in between. In memory it reads the table as it was when it
was opened. In a file it has at each time read the beginning of what the file holds
then, and with the last chunk all of it. Without appends, chunks of one size come to
the end as soon as they cover the table. No table is larger than the machine's memory,
and no file than the largest offset. -/
theorem readThrough_exact {table : String} {steps : List CursorStep} :
    (∀ (memory : Memory) (content : Bytes), memory.content? table = some content →
      content.length ≤ Word.max →
        (∃ cursor after,
          (Memory.storage.readThrough Memory.append table steps).run memory = (.ok cursor, after) ∧
            cursor.bytes <+: content ∧ (cursor.next = none → cursor.bytes = content)) ∧
        ∀ size, 0 < size → ∃ cursor, (Memory.storage.readThrough Memory.append table
          (List.replicate (max 1 (content.length ⌈/⌉ size)) (.read size))).run memory =
            (.ok cursor, memory) ∧ cursor.next = none) ∧
    ∀ (tree : FileTree) (root : String) (content : Bytes), Path.isFileName table = true →
      tree.find (Path.join root table) = .ok (.file content) →
      content.length + CursorStep.totalFor table steps < 0x8000000000000000 →
        (∃ cursor after current,
          ((Files.storage ⟨FileTree.disk, root⟩).readThrough (Files.appendRow ⟨FileTree.disk, root⟩)
            table steps).run tree = (.ok cursor, after) ∧
              after.find (Path.join root table) = .ok (.file current) ∧
              cursor.bytes <+: current ∧ (cursor.next = none → cursor.bytes = current)) ∧
        ∀ size, 0 < size → ∃ cursor, ((Files.storage ⟨FileTree.disk, root⟩).readThrough
          (Files.appendRow ⟨FileTree.disk, root⟩) table
          (List.replicate (max 1 (content.length ⌈/⌉ size)) (.read size))).run tree =
            (.ok cursor, tree) ∧ cursor.next = none := by
  constructor
  · intro memory content hcontent hword
    have hshows := Memory.shows_snapshot hword table
    have hopen := Memory.openTable_run hcontent
    have hshown : ∀ room, Memory.Snapshot content memory room content := fun _ => rfl
    constructor
    · obtain ⟨cursor, after, room, added, hrun, hsame, hwithin⟩ :=
        hshows.follow_run (hshown (CursorStep.totalFor table steps)) (Cursor.start_within content)
      rw [hsame] at hwithin
      exact ⟨cursor, after, by rw [Storage.readThrough_run hopen, hrun], hwithin.bytes,
        hwithin.ended⟩
    · intro size hsize
      exact hshows.readThrough_ends hopen (hshown 0) hsize
  · intro tree root content hname hfile hlimit
    have hshows : Storage.Shows _ _ _ table (Files.Live root table) := Files.shows_live hname
    have hopen := Files.openTable_run hname hfile
    have hshown : Files.Live root table tree (CursorStep.totalFor table steps) content :=
      ⟨hfile, hlimit⟩
    constructor
    · obtain ⟨cursor, after, room, added, hrun, ⟨hafter, -⟩, hwithin⟩ :=
        hshows.follow_run hshown (Cursor.start_within content)
      exact ⟨cursor, after, _, by rw [Storage.readThrough_run hopen, hrun], hafter, hwithin.bytes,
        hwithin.ended⟩
    · intro size hsize
      exact hshows.readThrough_ends hopen hshown hsize

def digitBytes : Bytes := [1, 2, 3, 4, 5]

def digitMemory : Memory :=
  Memory.empty.put "Digit" digitBytes

def digitTree : FileTree :=
  ((FileTree.empty []).put ["data"] .directory).put ["Digit", "data"] (.file digitBytes)

/-- The table grows behind what has been read, and the last chunk asks for more than
there is. -/
def digitSteps : List CursorStep :=
  [.read 2, .append "Digit" [6, 7], .append "Ghost" [0], .read 2, .append "../Digit" [8], .read 100]

theorem readThrough_exact_digits :
    (∃ cursor after,
      (Memory.storage.readThrough Memory.append "Digit" digitSteps).run digitMemory =
        (.ok cursor, after) ∧
          cursor.bytes <+: digitBytes ∧ (cursor.next = none → cursor.bytes = digitBytes)) ∧
      (∃ cursor after current,
        ((Files.storage ⟨FileTree.disk, "data"⟩).readThrough
          (Files.appendRow ⟨FileTree.disk, "data"⟩) "Digit" digitSteps).run digitTree =
            (.ok cursor, after) ∧
          after.find "data/Digit" = .ok (.file current) ∧
          cursor.bytes <+: current ∧ (cursor.next = none → cursor.bytes = current)) ∧
      ∃ cursor, (Memory.storage.readThrough Memory.append "Digit"
        (List.replicate 3 (.read 2))).run digitMemory = (.ok cursor, digitMemory) ∧
          cursor.next = none := by
  have hread := @readThrough_exact "Digit" digitSteps
  have hmemory := hread.1 digitMemory digitBytes rfl (by decide)
  have hfile : digitTree.find (Path.join "data" "Digit") = .ok (.file digitBytes) :=
    FileTree.find_eq_ok.mpr ⟨["Digit", "data"], by decide +kernel, rfl⟩
  have hfiles := hread.2 digitTree "data" digitBytes (by decide) hfile (by decide)
  have hcount : max 1 (digitBytes.length ⌈/⌉ 2) = 3 := by
    rw [Nat.ceilDiv_eq_add_pred_div]
    rfl
  exact ⟨hmemory.1, hfiles.1, hcount ▸ hmemory.2 2 (by decide)⟩

end Tabular
