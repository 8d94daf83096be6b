import Tabular.Proofs.Composition
import Tabular.Proofs.Validation

/-! # Running scripts

A script that cannot be parsed fails as such, before anything is run. Any other script
has the results of its statements, or the error of the first of them that fails; a
statement does not matter to those after it.
-/

namespace Tabular

section Causes

variable {α β : Type} {e : Error}

theorem Outcome.ok_ne_error (a : α) : (.ok a : Outcome α) ≠ .error e := by
  intro hfails
  cases hfails

/-- An error that arises at no step of a sequence does not come of the sequence. -/
theorem Outcome.bind_ne_error {first : Outcome α} {next : α → Outcome β}
    (hfirst : first ≠ .error e) (hnext : ∀ a, next a ≠ .error e) : first >>= next ≠ .error e := by
  intro hfails
  rcases Outcome.bind_eq_error.mp hfails with hfails | ⟨a, -, hfails⟩
  · exact hfirst hfails
  · exact hnext a hfails

theorem mapM_ne_error {f : α → Outcome β} {items : List α} (hsteps : ∀ item, f item ≠ .error e) :
    items.mapM f ≠ .error e := by
  intro hfails
  obtain ⟨item, -, hitem⟩ := exists_of_mapM_eq_error hfails
  exact hsteps item hitem

end Causes

theorem Statement.plan_ne_parse {catalog : Catalog} {chunkSize : Nat} {statement : Statement}
    {fault : ParseError} : statement.plan catalog chunkSize ≠ .error (.parse fault) := by
  have hname : ∀ schema name, BoundColumn.ofName schema name ≠ .error (.parse fault) := by
    intro schema name
    unfold BoundColumn.ofName
    split <;> simp
  have hkind : ∀ (column : BoundColumn) value,
      column.checkComparable value ≠ .error (.parse fault) := by
    intro column value
    unfold BoundColumn.checkComparable
    split <;> simp
  have hfilter : ∀ schema condition, Plan.filterOf schema condition ≠ .error (.parse fault) := by
    intro schema condition
    cases condition with
    | none => simp [Plan.filterOf]
    | some condition =>
        refine Outcome.bind_ne_error ?_ fun filter => Outcome.ok_ne_error _
        refine Outcome.bind_ne_error (hname schema _) fun column => ?_
        exact Outcome.bind_ne_error (hkind column _) fun _ => Outcome.ok_ne_error _
  cases statement with
  | unsupported command => simp [plan]
  | select selection =>
      refine Outcome.bind_ne_error ?_ fun schema => ?_
      · unfold Catalog.resolve
        split <;> simp
      refine Outcome.bind_ne_error ?_ fun plan => Outcome.ok_ne_error _
      refine Outcome.bind_ne_error ?_ fun _ => ?_
      · unfold checkChunkSize
        split <;> simp
      refine Outcome.bind_ne_error (mapM_ne_error (hname schema)) fun projection => ?_
      exact Outcome.bind_ne_error (hfilter schema _) fun filter => Outcome.ok_ne_error _

namespace Storage

variable {σ Handle : Type} {storage : Storage (StateM σ) Handle}

/-- Reading tables leaves them as they are. -/
structure Steady (storage : Storage (StateM σ) Handle) : Prop where
  openTable : ∀ table state, ((storage.openTable table).run state).2 = state
  readChunk : ∀ handle offset size state,
    ((storage.readChunk handle offset size).run state).2 = state
  closeTable : ∀ handle state, ((storage.closeTable handle).run state).2 = state

theorem Visit.after_eq (hsteady : storage.Steady) {table : String} {size : Nat} {state after : σ}
    {calls : List (StorageCall Handle)} {chunk : Outcome Chunk}
    (hvisit : storage.Visit table size state calls chunk after) : after = state := by
  cases hvisit with
  | unopened hopen =>
      have hopened := hsteady.openTable table state
      rwa [hopen] at hopened
  | @opened handle chunk closed opened read after hopen hread hclose =>
      have hopened := hsteady.openTable table state
      have hreading := hsteady.readChunk handle 0 size opened
      have hclosed := hsteady.closeTable handle read
      rw [hopen] at hopened
      rw [hread] at hreading
      rw [hclose] at hclosed
      exact hclosed.trans (hreading.trans hopened)

theorem fixed_steady (chunk : Chunk) : (Storage.fixed chunk : Storage (StateM σ) Unit).Steady :=
  ⟨fun _ _ => rfl, fun _ _ _ _ => rfl, fun _ _ => rfl⟩

end Storage

theorem Memory.storage_steady : Memory.storage.Steady where
  openTable table memory := by
    cases hcontent : memory.content? table with
    | none =>
        simp [storage, hcontent]
        rfl
    | some content => rw [openTable_run hcontent]
  readChunk handle offset size memory := rfl
  closeTable handle memory := rfl

theorem Files.storage_steady (root : String) : (Files.storage ⟨FileTree.disk, root⟩).Steady where
  openTable table tree := by
    change ((Files.openTable ⟨FileTree.disk, root⟩ table).run tree).2 = tree
    unfold openTable
    split
    · rfl
    next path hpath =>
      rw [run_bind_of_run (FileTree.disk_openFile_run tree path)]
      cases tree.find path <;> rfl
  readChunk handle offset size tree := by
    change ((Files.readChunk ⟨FileTree.disk, root⟩ handle offset size).run tree).2 = tree
    rw [readChunk, run_bind_of_run (FileTree.disk_read_run tree handle.path offset _)]
    cases tree.read handle.path offset (Word.addSaturating size 1) <;> rfl
  closeTable handle tree := rfl

namespace Engine

variable {σ Handle : Type} {engine : Engine (StateM σ) Handle} {state : σ}

/-- What comes of a statement while the tables are as they are. -/
def outcome (engine : Engine (StateM σ) Handle) (state : σ) (statement : Statement) :
    Outcome QueryResult :=
  ((engine.execute statement).run state).1

theorem outcome_ne_parse (hstorage : engine.storage.NeverRejects) (state : σ)
    (statement : Statement) (fault : ParseError) : engine.outcome state statement ≠ .error (.parse fault) := by
  intro hfails
  rw [outcome] at hfails
  cases hplan : statement.plan engine.catalog engine.chunkSize with
  | error e =>
      rw [(execute_of_plan_error engine hplan state).1] at hfails
      cases hfails
      exact Statement.plan_ne_parse hplan
  | ok planned =>
      obtain ⟨chunk, after, hvisit, hrun⟩ := execute_of_plan engine hplan state
      rw [hrun] at hfails
      rcases Outcome.bind_eq_error.mp hfails with hchunk | ⟨data, -, hscan⟩
      · rw [hchunk] at hvisit
        cases hvisit.not_isValidation hstorage
      · obtain ⟨cause, hcause⟩ := Plan.corruption_of_scan hscan
        cases hcause

theorem executeAll_ne_parse (hstorage : engine.storage.NeverRejects) (state : σ)
    (statements : List Statement) (fault : ParseError) :
    ((engine.executeAll statements).run state).1 ≠ .error (.parse fault) := by
  induction statements generalizing state with
  | nil => exact Outcome.ok_ne_error _
  | cons statement rest ih =>
      have hfirst := outcome_ne_parse hstorage state statement fault
      rw [outcome] at hfirst
      rcases hrun : (engine.execute statement).run state with ⟨⟨e⟩ | ⟨result⟩, next⟩
      · rw [hrun] at hfirst
        rw [executeAll_cons, run_bind_of_run hrun]
        intro hfails
        cases hfails
        exact hfirst rfl
      · have hrest := ih next
        rw [executeAll_cons, run_bind_of_run hrun]
        rcases hrun' : (engine.executeAll rest).run next with ⟨⟨e⟩ | ⟨results⟩, after⟩
        · rw [hrun'] at hrest
          dsimp only
          rw [run_bind_of_run hrun']
          exact hrest
        · dsimp only
          rw [run_bind_of_run hrun']
          exact Outcome.ok_ne_error _

/-- Running a script fails for its text exactly if it cannot be parsed. -/
theorem run_eq_parse_iff (hstorage : engine.storage.NeverRejects) (state : σ) (script : String)
    (fault : ParseError) :
    ((engine.run script).run state).1 = .error (.parse fault) ↔
      Script.parse script = .error fault := by
  rw [run_eq]
  cases hparse : Script.parse script with
  | error other =>
      change Except.error (Error.parse other) = .error (.parse fault) ↔ _
      simp
  | ok statements =>
      simp only [reduceCtorEq, iff_false]
      exact executeAll_ne_parse hstorage state statements fault

theorem readTable_run_of_steady (hsteady : engine.storage.Steady) (table : String) (state : σ) :
    (engine.readTable table).run state = (((engine.readTable table).run state).1, state) := by
  obtain ⟨calls, chunk, after, hvisit, hread, -⟩ := readTable_logged engine table state
  rw [hread, hvisit.after_eq hsteady]

theorem outcome_eq_answerFrom {chunks : String → Outcome Chunk}
    (hread : ∀ table, (engine.readTable table).run state = (chunks table, state)) :
    engine.outcome state = Statement.answerFrom engine.catalog engine.chunkSize chunks := by
  funext statement
  rw [outcome, execute_run hread]

/-- Each statement of a script is run over the same tables. -/
theorem run_of_parse (hsteady : engine.storage.Steady) {script : String}
    {statements : List Statement} (hparse : Script.parse script = .ok statements) (state : σ) :
    ((engine.run script).run state).1 = statements.mapM (engine.outcome state) := by
  have hread := fun table => readTable_run_of_steady hsteady table state
  rw [run_run hread, hparse, outcome_eq_answerFrom hread]

end Engine

/-- A script that cannot be parsed fails with that error, and no other script does,
whatever its statements come to. A script that can be parsed has the results of its
statements over the same tables in their order, or no result and the error of the first
statement that fails. So scripts one behind the other have the results of both, or the
error of the first that fails. The storage is one whose own errors are no validation
errors and which is not changed by reading it, as tables in memory, tables in files and a
fixed chunk are. -/
theorem Engine.run_all_or_nothing {σ Handle : Type} {engine : Engine (StateM σ) Handle}
    (hstorage : engine.storage.NeverRejects) (state : σ) :
    (∀ script fault, ((engine.run script).run state).1 = .error (.parse fault) ↔
      Script.parse script = .error fault) ∧
    (engine.storage.Steady →
      (∀ script statements, Script.parse script = .ok statements →
        (∀ results, ((engine.run script).run state).1 = .ok results ↔
          List.Forall₂ (fun statement result => engine.outcome state statement = .ok result)
            statements results) ∧
        ∀ e, ((engine.run script).run state).1 = .error e ↔
          ∃ before failing after, statements = before ++ failing :: after ∧
            (∀ statement ∈ before, ∃ result, engine.outcome state statement = .ok result) ∧
            engine.outcome state failing = .error e) ∧
      ∀ first second statements others, Script.parse first = .ok statements →
        Script.parse second = .ok others →
          ((engine.run (first ++ ";" ++ second)).run state).1 = do
            let before ← ((engine.run first).run state).1
            let after ← ((engine.run second).run state).1
            return before ++ after) ∧
    (Memory.storage.NeverRejects ∧ Memory.storage.Steady) ∧
      (∀ root, (Files.storage ⟨FileTree.disk, root⟩).NeverRejects ∧
        (Files.storage ⟨FileTree.disk, root⟩).Steady) ∧
      ∀ chunk : Chunk, (Storage.fixed chunk : Storage (StateM σ) Unit).NeverRejects ∧
        (Storage.fixed chunk : Storage (StateM σ) Unit).Steady := by
  refine ⟨run_eq_parse_iff hstorage state, fun hsteady => ⟨?_, ?_⟩,
    ⟨Memory.storage_neverRejects, Memory.storage_steady⟩,
    fun root => ⟨Files.storage_neverRejects _, Files.storage_steady root⟩,
    fun chunk => ⟨Storage.fixed_neverRejects chunk, Storage.fixed_steady chunk⟩⟩
  · intro script statements hparse
    rw [run_of_parse hsteady hparse]
    exact ⟨fun results => mapM_eq_ok_iff, fun e => mapM_eq_error_iff⟩
  · intro first second statements others hfirst hsecond
    have hboth : Script.parse (first ++ ";" ++ second) = .ok (statements ++ others) := by
      have hparts := Script.parse_append_terminator ';' rfl first second
      rw [hfirst, hsecond] at hparts
      exact hparts
    rw [run_of_parse hsteady hboth, run_of_parse hsteady hfirst, run_of_parse hsteady hsecond,
      List.mapM_append]

/-- The builtin table with one row in it. -/
def userEngine : Engine (StateM Memory) Bytes :=
  ⟨.builtin, Memory.storage, 16⟩

def userMemory : Memory :=
  Memory.empty.appendRow "User" [7, 0, 0, 0, 30, 0, 0, 0]

theorem Engine.run_all_or_nothing_users :
    userEngine.storage.NeverRejects ∧ userEngine.storage.Steady ∧
      ((userEngine.run "select id from Nowhere; select id").run userMemory).1 =
        .error (.parse .missingFrom) ∧
      ((userEngine.run "select id from User; drop User; select id from Nowhere").run userMemory).1 =
        .error (.unsupportedCommand .drop) ∧
      ((userEngine.run ("select id from User" ++ ";" ++ "select age from User")).run userMemory).1 =
        .ok [⟨["id"], [⟨[("id", .integer 7)]⟩], false, none⟩,
          ⟨["age"], [⟨[("age", .integer 30)]⟩], false, none⟩] := by
  have hstorage : userEngine.storage.NeverRejects := Memory.storage_neverRejects
  have hparses := Engine.run_all_or_nothing hstorage userMemory
  obtain ⟨hscripts, hboth⟩ := hparses.2.1 Memory.storage_steady
  refine ⟨hstorage, Memory.storage_steady, ?_, ?_, ?_⟩
  · -- The text decides, though the table of the first statement is unknown.
    exact (hparses.1 _ _).mpr (by decide +kernel)
  · have hparse : Script.parse "select id from User; drop User; select id from Nowhere" =
        .ok [.select ⟨.named ["id"], "User", none⟩, .unsupported .drop,
          .select ⟨.named ["id"], "Nowhere", none⟩] := by decide +kernel
    refine ((hscripts _ _ hparse).2 _).mpr ⟨[.select ⟨.named ["id"], "User", none⟩],
      .unsupported .drop, [.select ⟨.named ["id"], "Nowhere", none⟩], rfl, ?_, rfl⟩
    intro statement hstatement
    rw [List.mem_singleton.mp hstatement]
    exact ⟨⟨["id"], [⟨[("id", .integer 7)]⟩], false, none⟩, by decide +kernel⟩
  · have hfirst : Script.parse "select id from User" =
        .ok [.select ⟨.named ["id"], "User", none⟩] := by decide +kernel
    have hsecond : Script.parse "select age from User" =
        .ok [.select ⟨.named ["age"], "User", none⟩] := by decide +kernel
    rw [hboth _ _ _ _ hfirst hsecond]
    decide +kernel

end Tabular
