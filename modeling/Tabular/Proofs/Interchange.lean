import Tabular.Proofs.Appending
import Tabular.Proofs.Engine

/-! # Two storages that answer alike

Tables in memory and tables in the files below an empty root answer every sequence
of appends, reads and queries alike. Only the error of a missing table tells them
apart: it names the table in one and its path in the other.
-/

namespace Tabular

/-- The outcomes are the same, or both are that there is no file. -/
inductive Outcome.Agrees {α : Type} : Outcome α → Outcome α → Prop
  | same (outcome : Outcome α) : Agrees outcome outcome
  | missing (first second : String) :
    Agrees (.error (.fileNotFound first)) (.error (.fileNotFound second))

theorem Outcome.Agrees.bind {α β : Type} {first second : Outcome α} {next next' : α → Outcome β}
    (hagrees : Outcome.Agrees first second) (hnext : ∀ a, Outcome.Agrees (next a) (next' a)) :
    Outcome.Agrees (first >>= next) (second >>= next') := by
  cases hagrees with
  | same =>
      cases first with
      | error e => exact .same _
      | ok a => exact hnext a
  | missing => exact .missing ..

theorem Outcome.Agrees.mapM {α β : Type} {f g : α → Outcome β} {items : List α}
    (hagrees : ∀ item ∈ items, Outcome.Agrees (f item) (g item)) :
    Outcome.Agrees (items.mapM f) (items.mapM g) := by
  induction items with
  | nil => exact .same _
  | cons item rest ih =>
      obtain ⟨hitem, hrest⟩ := List.forall_mem_cons.mp hagrees
      rw [List.mapM_cons, List.mapM_cons]
      apply hitem.bind
      intro b
      apply (ih hrest).bind
      intro others
      exact .same _

/-- One use of a storage. -/
inductive StorageStep
  | append (table : String) (row : Bytes)
  /-- Opens a table, reads a chunk of it, and closes it again. -/
  | read (table : String) (offset size : Nat)
  | select (catalog : Catalog) (chunkSize : Nat) (schema : Schema) (selection : Selection)
  | execute (catalog : Catalog) (chunkSize : Nat) (statement : Statement)
  | run (catalog : Catalog) (chunkSize : Nat) (script : String)

/-- What a storage answers to a use of it. -/
inductive StorageAnswer
  | appended (outcome : Outcome Unit)
  | chunk (outcome : Outcome Chunk)
  | result (outcome : Outcome QueryResult)
  | results (outcome : Outcome (List QueryResult))

/-- The answers are of one kind and their outcomes agree. -/
inductive StorageAnswer.Agrees : StorageAnswer → StorageAnswer → Prop
  | appended {first second : Outcome Unit} (houtcome : Outcome.Agrees first second) :
    Agrees (.appended first) (.appended second)
  | chunk {first second : Outcome Chunk} (houtcome : Outcome.Agrees first second) :
    Agrees (.chunk first) (.chunk second)
  | result {first second : Outcome QueryResult} (houtcome : Outcome.Agrees first second) :
    Agrees (.result first) (.result second)
  | results {first second : Outcome (List QueryResult)} (houtcome : Outcome.Agrees first second) :
    Agrees (.results first) (.results second)

def Statement.table? : Statement → Option String
  | .select selection => some selection.table
  | .unsupported _ => none

namespace StorageStep

def tables : StorageStep → List String
  | append table _ => [table]
  | read table _ _ => [table]
  | select _ _ _ selection => [selection.table]
  | execute _ _ statement => statement.table?.toList
  | run _ _ script =>
    match Script.parse script with
    | .error _ => []
    | .ok statements => statements.filterMap Statement.table?

def offset : StorageStep → Nat
  | read _ offset _ => offset
  | _ => 0

def bytesFor (table : String) : StorageStep → Nat
  | append other row => if other = table then row.length else 0
  | _ => 0

def totalFor (table : String) : List StorageStep → Nat
  | [] => 0
  | step :: rest => step.bytesFor table + totalFor table rest

variable {m : Type → Type} [Monad m] {Handle : Type}

/-- Takes a step with a storage and its writer. -/
def take (storage : Storage m Handle) (appendRow : String → Bytes → m (Outcome Unit)) :
    StorageStep → m StorageAnswer
  | append table row => return .appended (← appendRow table row)
  | read table offset size => return .chunk (← storage.readOnce table offset size)
  | select catalog chunkSize schema selection =>
    return .result (← Engine.selectWith ⟨catalog, storage, chunkSize⟩ schema selection)
  | execute catalog chunkSize statement =>
    return .result (← Engine.execute ⟨catalog, storage, chunkSize⟩ statement)
  | run catalog chunkSize script =>
    return .results (← Engine.run ⟨catalog, storage, chunkSize⟩ script)

def inMemory : StorageStep → StateM Memory StorageAnswer :=
  take Memory.storage fun table row => modifyGet fun memory =>
    (.ok (), memory.appendRow table row)

def inFiles (root : String) : StorageStep → StateM FileTree StorageAnswer :=
  take (Files.storage ⟨FileTree.disk, root⟩) (Files.appendRow ⟨FileTree.disk, root⟩)

end StorageStep

/-- There is nothing at the place of any table's file. -/
def FileTree.EmptyRoot (tree : FileTree) (root : String) : Prop :=
  ∀ table, Path.isFileName table = true → tree.Vacant (Path.join root table)

/-- A table of the name can be made below the root: adding an empty row to it is no
error. -/
def FileTree.Accepts (tree : FileTree) (root table : String) : Prop :=
  ((Files.appendRow ⟨FileTree.disk, root⟩ table []).run tree).1 = .ok ()

theorem Selection.answerFrom_agrees {selection : Selection} {chunk chunk' : Outcome Chunk}
    (hagrees : Outcome.Agrees chunk chunk') (chunkSize : Nat) (schema : Schema) :
    Outcome.Agrees (selection.answerFrom chunkSize schema chunk)
      (selection.answerFrom chunkSize schema chunk') := by
  apply (Outcome.Agrees.same (Plan.ofSelection chunkSize schema selection)).bind
  intro plan
  apply hagrees.bind
  intro chunk
  exact .same _

/-- Statements are answered alike where the chunks of their tables are alike. -/
theorem Statement.answerFrom_agrees {chunks chunks' : String → Outcome Chunk}
    {statement : Statement}
    (hagrees : ∀ table ∈ statement.table?, Outcome.Agrees (chunks table) (chunks' table))
    (catalog : Catalog) (chunkSize : Nat) :
    Outcome.Agrees (statement.answerFrom catalog chunkSize chunks)
      (statement.answerFrom catalog chunkSize chunks') := by
  cases statement with
  | unsupported command => exact .same _
  | select selection =>
      apply (Outcome.Agrees.same (catalog.resolve selection.table)).bind
      intro schema
      exact Selection.answerFrom_agrees (hagrees selection.table rfl) chunkSize schema

namespace FileTree

variable {tree : FileTree} {root table : String}

/-- An accepted table has a place that can be reached once the directories of the
root are made, and no directory is there. -/
theorem Accepts.place (haccepts : tree.Accepts root table) :
    Path.isFileName table = true ∧ ∃ made, tree.makeDirectories (Path.trimmed root) = (.ok (), made) ∧
      ∃ place, made.resolve (Path.join root table) = .ok place ∧
        made.node? place ≠ some .directory ∧ tree.locate (Path.join root table) = .ok place := by
  rcases hrun : (Files.appendRow ⟨disk, root⟩ table []).run tree with ⟨outcome, after⟩
  have hok : outcome = .ok () := by
    rw [Accepts, hrun] at haccepts
    exact haccepts
  rw [hok] at hrun
  obtain ⟨hname, made, hmade, happend⟩ := Files.appendRow_eq_ok.mp hrun
  obtain ⟨place, content, hresolve, hnode, -⟩ := append_eq_ok.mp happend
  have hlocate := locate_of_resolve hresolve
  rw [locate_congr (onlyMakes_of_makeDirectories hmade).current] at hlocate
  exact ⟨hname, made, hmade, place, hresolve, ne_directory_of_appendable hnode, hlocate⟩

end FileTree

@[simp] theorem Memory.content?_appendRow_self (memory : Memory) (table : String) (row : Bytes) :
    (memory.appendRow table row).content? table = some ((memory.content? table).getD [] ++ row) :=
  if_pos rfl

theorem Memory.content?_appendRow_of_ne {table other : String} (hother : other ≠ table)
    (memory : Memory) (row : Bytes) :
    (memory.appendRow table row).content? other = memory.content? other :=
  if_neg hother

/-- A memory and a tree that have come from no tables and from an empty root by the
same steps. The tree is still the one from the beginning, or the directories of the
root have been made. -/
structure Mirrors (start : FileTree) (root : String) (memory : Memory) (tree : FileTree) : Prop where
  grown : tree = start ∧ memory = .empty ∨
    ∃ made, start.makeDirectories (Path.trimmed root) = (.ok (), made) ∧ made.Extends tree
  content : ∀ table, start.Accepts root table →
    ∀ place, start.locate (Path.join root table) = .ok place →
      tree.node? place = (memory.content? table).map .file

namespace Mirrors

variable {start tree : FileTree} {root table : String} {memory : Memory}

theorem initial (hempty : start.EmptyRoot root) : Mirrors start root .empty start where
  grown := .inl ⟨rfl, rfl⟩
  content table haccepts place hlocate := hempty table haccepts.place.1 place hlocate

/-- A memory holds the tables that paths find in the tree. -/
theorem find_eq (hmirrors : Mirrors start root memory tree) (haccepts : start.Accepts root table) :
    tree.find (Path.join root table) =
      match memory.content? table with
      | some content => .ok (.file content)
      | none => .error .notFound := by
  obtain ⟨-, made, hmade, place, hresolve, -, hlocate⟩ := haccepts.place
  have hnode := hmirrors.content table haccepts place hlocate
  rcases hmirrors.grown with ⟨rfl, rfl⟩ | ⟨made', hmade', hextends⟩
  · -- The root may still be missing, so that the path leads nowhere.
    change _ = Except.error DiskFault.notFound
    rcases (FileTree.onlyMakes_of_makeDirectories hmade).resolve hresolve with htree | htree
    · exact FileTree.find_eq_notFound htree hnode
    · rw [FileTree.find, htree]
      rfl
  · rw [hmade] at hmade'
    cases hmade'
    have htree := hextends.resolve hresolve
    cases hcontent : memory.content? table with
    | none => exact FileTree.find_eq_notFound htree (by rw [hnode, hcontent]; rfl)
    | some content => exact FileTree.find_eq_ok.mpr ⟨place, htree, by rw [hnode, hcontent]; rfl⟩

/-- Making the directories of the root leaves the tables as they are. -/
theorem makeDirectories (hmirrors : Mirrors start root memory tree) {made : FileTree}
    (hmade : start.makeDirectories (Path.trimmed root) = (.ok (), made)) :
    ∃ built, tree.makeDirectories (Path.trimmed root) = (.ok (), built) ∧ made.Extends built ∧
      Mirrors start root memory built := by
  rcases hmirrors.grown with ⟨rfl, -⟩ | ⟨made', hmade', hextends⟩
  · refine ⟨made, hmade, .refl made, .inr ⟨made, hmade, .refl made⟩, ?_⟩
    intro table haccepts place hlocate
    rcases (FileTree.onlyMakes_of_makeDirectories hmade).node? place with hsame | ⟨-, hdirectory⟩
    · rw [hsame]
      exact hmirrors.content table haccepts place hlocate
    · -- No accepted table is where a directory of the root is made.
      obtain ⟨-, made', hmade', place', -, hnot, hlocate'⟩ := haccepts.place
      rw [hmade] at hmade'
      rw [hlocate] at hlocate'
      cases hmade'
      cases hlocate'
      exact absurd hdirectory hnot
  · rw [hmade] at hmade'
    cases hmade'
    exact ⟨tree, FileTree.makeDirectories_again hmade hextends, hextends, hmirrors⟩

/-- A row that is added in memory can be added in the tree. -/
theorem appendRow (hmirrors : Mirrors start root memory tree) (haccepts : start.Accepts root table)
    (row : Bytes) :
    ∃ after, (Files.appendRow ⟨FileTree.disk, root⟩ table row).run tree = (.ok (), after) ∧
      Mirrors start root (memory.appendRow table row) after := by
  obtain ⟨hname, made, hmade, place, hresolve, -, hlocate⟩ := haccepts.place
  obtain ⟨built, hbuilt, hextends, hmirrors⟩ := hmirrors.makeDirectories hmade
  have hnode := hmirrors.content table haccepts place hlocate
  have hbytes : built.node? place = some (.file ((memory.content? table).getD [])) ∨
      built.node? place = none ∧ (memory.content? table).getD [] = [] := by
    rw [hnode]
    cases memory.content? table <;> simp
  have happend := FileTree.append_eq_ok.mpr
    ⟨place, _, hextends.resolve hresolve, hbytes, (rfl : _ = built.put place (.file (_ ++ row)))⟩
  refine ⟨_, Files.appendRow_eq_ok.mpr ⟨hname, built, hbuilt, happend⟩, ?_, ?_⟩
  · exact .inr ⟨made, hmade, hextends.trans
      (FileTree.extends_put _ (FileTree.ne_directory_of_appendable hbytes))⟩
  · intro other hother otherPlace hotherLocate
    by_cases hsame : other = table
    · subst hsame
      rw [hlocate] at hotherLocate
      cases hotherLocate
      simp
    · have hplaces := FileTree.locate_join_ne hname hother.place.1 hsame hlocate hotherLocate
      rw [FileTree.node?_put_of_ne hplaces, Memory.content?_appendRow_of_ne hsame]
      exact hmirrors.content other hother otherPlace hotherLocate

theorem readOnce_agrees (hmirrors : Mirrors start root memory tree)
    (haccepts : start.Accepts root table)
    (hword : ((memory.content? table).getD []).length ≤ Word.max) {offset : Nat}
    (hoffset : offset < 0x8000000000000000) (size : Nat) :
    Outcome.Agrees ((Memory.storage.readOnce table offset size).run memory).1
      ((Storage.readOnce (Files.storage ⟨FileTree.disk, root⟩) table offset size).run tree).1 := by
  have hpath : Path.ofTable root table = .ok (Path.join root table) :=
    Files.ofTable_eq_ok.mpr ⟨haccepts.place.1, rfl⟩
  have hfind := hmirrors.find_eq haccepts
  cases hcontent : memory.content? table with
  | none =>
      rw [hcontent] at hfind
      rw [Memory.readOnce_run, Files.readOnce_run, hcontent, hpath]
      simp only [hfind]
      exact .missing ..
  | some content =>
      rw [hcontent] at hfind hword
      rw [(Storage.Keeps.memory hcontent).readOnce_run hoffset (.inl hword),
        (Storage.Keeps.files hpath hfind).readOnce_run hoffset (.inl hword)]
      exact .same _

end Mirrors

namespace StorageStep

variable {start tree : FileTree} {root : String} {memory : Memory}

def bytesIn (memory : Memory) (table : String) : Nat :=
  ((memory.content? table).getD []).length

theorem bytesIn_appendRow (memory : Memory) (table other : String) (row : Bytes) :
    bytesIn (memory.appendRow table row) other =
      bytesIn memory other + (append table row).bytesFor other := by
  by_cases hother : other = table
  · subst hother
    simp [bytesIn, bytesFor]
  · simp [bytesIn, bytesFor, Memory.content?_appendRow_of_ne hother, Ne.symm hother]

theorem answer_run {σ α : Type} {action : StateM σ α} {state next : σ} {a : α}
    (hrun : action.run state = (a, next)) (answer : α → StorageAnswer) :
    (do return answer (← action) : StateM σ StorageAnswer).run state = (answer a, next) := by
  rw [StateT.run_bind, hrun]
  rfl

/-- Both storages have answered alike, and they are alike afterwards. -/
structure Answered (start : FileTree) (root : String) (step : StorageStep) (memory : Memory)
    (tree : FileTree) : Prop where
  agrees : StorageAnswer.Agrees (step.inMemory.run memory).1 ((step.inFiles root).run tree).1
  mirrors : Mirrors start root (step.inMemory.run memory).2 ((step.inFiles root).run tree).2
  bytes : ∀ table, bytesIn (step.inMemory.run memory).2 table =
    bytesIn memory table + step.bytesFor table

/-- A step that changes nothing leaves the storages alike. -/
theorem Answered.of_unchanged (hmirrors : Mirrors start root memory tree) {step : StorageStep}
    {first second : StorageAnswer} (hmemory : step.inMemory.run memory = (first, memory))
    (hfiles : (step.inFiles root).run tree = (second, tree))
    (hbytes : ∀ table, step.bytesFor table = 0) (hagrees : first.Agrees second) :
    Answered start root step memory tree where
  agrees := by rwa [hmemory, hfiles]
  mirrors := by rwa [hmemory, hfiles]
  bytes table := by rw [hmemory, hbytes, Nat.add_zero]

/-- Alike storages answer every step alike and stay so. -/
theorem answered (hmirrors : Mirrors start root memory tree) {step : StorageStep}
    (haccepts : ∀ table ∈ step.tables, start.Accepts root table)
    (hoffset : step.offset < 0x8000000000000000)
    (hword : ∀ table, bytesIn memory table ≤ Word.max) :
    Answered start root step memory tree := by
  have hchunks (chunkSize : Nat) : ∀ table ∈ step.tables, Outcome.Agrees
      (memory.firstChunk chunkSize table) (Files.firstChunk tree root chunkSize table) := by
    intro table htable
    exact hmirrors.readOnce_agrees (haccepts table htable) (hword table) (by decide) chunkSize
  cases step with
  | append table row =>
      obtain ⟨after, hrun, hafter⟩ := hmirrors.appendRow (haccepts table (by simp [tables])) row
      have hmemory : (append table row).inMemory.run memory =
          (.appended (.ok ()), memory.appendRow table row) := rfl
      have hfiles : ((append table row).inFiles root).run tree = (.appended (.ok ()), after) :=
        answer_run hrun .appended
      constructor
      · rw [hmemory, hfiles]
        exact .appended (.same _)
      · rw [hmemory, hfiles]
        exact hafter
      · intro other
        rw [hmemory]
        exact bytesIn_appendRow ..
  | read table offset size =>
      have hread := hmirrors.readOnce_agrees (haccepts table (by simp [tables])) (hword table)
        hoffset size
      rw [Memory.readOnce_run, Files.readOnce_run] at hread
      exact .of_unchanged hmirrors (answer_run (Memory.readOnce_run ..) .chunk)
        (answer_run (Files.readOnce_run ..) .chunk) (fun _ => rfl) (.chunk hread)
  | select catalog chunkSize schema selection =>
      have hmemory := Memory.firstChunk_run memory catalog chunkSize selection.table
      have hfiles := Files.firstChunk_run tree root catalog chunkSize selection.table
      refine .of_unchanged hmirrors (answer_run (Engine.selectWith_run hmemory) .result)
        (answer_run (Engine.selectWith_run hfiles) .result) (fun _ => rfl) (.result ?_)
      exact Selection.answerFrom_agrees (hchunks chunkSize selection.table (by simp [tables])) ..
  | execute catalog chunkSize statement =>
      have hagrees : ∀ table ∈ statement.table?, Outcome.Agrees
          (memory.firstChunk chunkSize table) (Files.firstChunk tree root chunkSize table) := by
        intro table htable
        exact hchunks chunkSize table (Option.mem_toList.mpr htable)
      have hmemory := Engine.execute_run (Memory.firstChunk_run memory catalog chunkSize) statement
      have hfiles := Engine.execute_run (Files.firstChunk_run tree root catalog chunkSize) statement
      exact .of_unchanged hmirrors (answer_run hmemory .result) (answer_run hfiles .result)
        (fun _ => rfl) (.result (Statement.answerFrom_agrees hagrees catalog chunkSize))
  | run catalog chunkSize script =>
      have hmemory := Engine.run_run (Memory.firstChunk_run memory catalog chunkSize) script
      have hfiles := Engine.run_run (Files.firstChunk_run tree root catalog chunkSize) script
      refine .of_unchanged hmirrors (answer_run hmemory .results) (answer_run hfiles .results)
        (fun _ => rfl) (.results ?_)
      cases hparse : Script.parse script with
      | error e => exact .same _
      | ok statements =>
          apply Outcome.Agrees.mapM
          intro statement hstatement
          apply Statement.answerFrom_agrees
          intro table htable
          apply hchunks chunkSize table
          simp only [tables, hparse]
          exact List.mem_filterMap.mpr ⟨statement, hstatement, htable⟩

/-- Alike storages answer every sequence of steps alike, as long as the tables fit
into the machine's memory. -/
theorem answers_agree (hmirrors : Mirrors start root memory tree) {steps : List StorageStep}
    (haccepts : ∀ step ∈ steps, ∀ table ∈ step.tables, start.Accepts root table)
    (hoffsets : ∀ step ∈ steps, step.offset < 0x8000000000000000)
    (hword : ∀ table, bytesIn memory table + totalFor table steps ≤ Word.max) :
    List.Forall₂ StorageAnswer.Agrees ((steps.mapM inMemory).run memory).1
      ((steps.mapM (inFiles root)).run tree).1 := by
  induction steps generalizing memory tree with
  | nil => exact .nil
  | cons step rest ih =>
      obtain ⟨haccept, haccepts⟩ := List.forall_mem_cons.mp haccepts
      obtain ⟨hoffset, hoffsets⟩ := List.forall_mem_cons.mp hoffsets
      -- What a table has and what is still to come add up to the same after the step.
      simp only [totalFor] at hword
      have hstep := answered hmirrors haccept hoffset fun table => by
        have htable := hword table
        omega
      rw [mapM_run_cons, mapM_run_cons]
      refine .cons hstep.agrees (ih hstep.mirrors haccepts hoffsets ?_)
      intro table
      rw [hstep.bytes, Nat.add_assoc]
      exact hword table

end StorageStep

/-- Tables in memory and tables in files below an empty root answer every sequence of
steps alike. In both, a chunk of a table is the bytes of it from an offset on, as many
as asked for as far as there are any, with the offset behind them if more follow. The
tables have to fit into the machine's memory. -/
theorem storages_interchangeable {tree : FileTree} {root : String} (hempty : tree.EmptyRoot root)
    {steps : List StorageStep}
    (haccepts : ∀ step ∈ steps, ∀ table ∈ step.tables, tree.Accepts root table)
    (hoffsets : ∀ step ∈ steps, step.offset < 0x8000000000000000)
    (hword : ∀ table, StorageStep.totalFor table steps ≤ Word.max) :
    List.Forall₂ StorageAnswer.Agrees ((steps.mapM StorageStep.inMemory).run .empty).1
        ((steps.mapM (StorageStep.inFiles root)).run tree).1 ∧
      ∀ content : Bytes, content.length ≤ Word.max → ∀ offset < 0x8000000000000000, ∀ size,
        (∀ memory, (Memory.storage.readChunk content offset size).run memory =
          (.ok (Chunk.ofContent content offset size), memory)) ∧
        ∀ (later : FileTree) (handle : FileHandle), later.find handle.path = .ok (.file content) →
          ((Files.storage ⟨FileTree.disk, root⟩).readChunk handle offset size).run later =
            (.ok (Chunk.ofContent content offset size), later) := by
  constructor
  · apply StorageStep.answers_agree (.initial hempty) haccepts hoffsets
    intro table
    have hnone : StorageStep.bytesIn .empty table = 0 := rfl
    rw [hnone, Nat.zero_add]
    exact hword table
  · intro content hcontent offset hoffset size
    constructor
    · exact Memory.readChunk_run hcontent offset size
    · intro later handle hfile
      exact Files.readChunk_run hfile hcontent hoffset size

/-- Steps over the builtin table: it is asked for before it exists, made, read from
behind its first row, and asked for again. -/
def userSteps : List StorageStep :=
  [.run .builtin 16 "select * from User;", .append "User" [1, 0, 0, 0, 30, 0, 0, 0],
    .append "User" [2, 0, 0, 0, 31, 0, 0, 0, 3], .read "User" 8 Word.max,
    .run .builtin 16 "select id from User where age > 30"]

theorem storages_interchangeable_users :
    List.Forall₂ StorageAnswer.Agrees ((userSteps.mapM StorageStep.inMemory).run .empty).1
        ((userSteps.mapM (StorageStep.inFiles "data/./")).run (FileTree.empty [])).1 ∧
      (Memory.storage.readChunk [1, 2, 3] 1 Word.max).run .empty =
        (.ok ⟨1, [2, 3], 2, none⟩, .empty) := by
  have haccepts : (FileTree.empty []).Accepts "data/./" "User" := by
    unfold FileTree.Accepts
    decide +kernel
  have htables : ∀ step ∈ userSteps, ∀ table ∈ step.tables, table = "User" := by decide +kernel
  have hword : ∀ table, StorageStep.totalFor table userSteps ≤ Word.max := by
    intro table
    simp only [userSteps, StorageStep.totalFor, StorageStep.bytesFor]
    split <;> decide
  have hagree := storages_interchangeable (fun _ hname => FileTree.vacant_empty hname)
    (fun step hstep table htable => htables step hstep table htable ▸ haccepts) (by decide) hword
  exact ⟨hagree.1, (hagree.2 [1, 2, 3] (by decide) 1 (by decide) Word.max).1 .empty⟩

end Tabular
