import Tabular.Proofs.Engine

/-! # Checks before access

What lies in a request alone is checked before the storage is used: a statement that
is refused for it is refused alike over every storage, and none is asked for anything.
A statement that passes makes one visit to its table, which is closed again even if it
could not be read.
-/

namespace Tabular

/-- A cell that does not decode is corrupt. -/
theorem Cell.corruption_of_decode {type : ColumnType} {bytes : Bytes} {e : Error}
    (hfails : decode type bytes = .error e) : ∃ cause, e = .corruption cause := by
  unfold decode at hfails
  split at hfails
  · cases hfails
    exact ⟨_, rfl⟩
  · split at hfails
    · cases hfails
    · dsimp only at hfails
      split at hfails
      · cases hfails
      · cases hfails
        exact ⟨_, rfl⟩

theorem BoundColumn.isValidation_of_ofName {schema : Schema} {name : String} {e : Error}
    (hfails : ofName schema name = .error e) : e.isValidation = true := by
  unfold ofName at hfails
  split at hfails
  · cases hfails
  · cases hfails
    rfl

theorem Filter.isValidation_of_ofCondition {schema : Schema} {condition : Condition} {e : Error}
    (hfails : ofCondition schema condition = .error e) : e.isValidation = true := by
  rcases Outcome.bind_eq_error.mp hfails with hcolumn | ⟨column, -, hfails⟩
  · exact BoundColumn.isValidation_of_ofName hcolumn
  rcases Outcome.bind_eq_error.mp hfails with hkind | ⟨-, -, hdone⟩
  · unfold BoundColumn.checkComparable at hkind
    split at hkind
    · cases hkind
    · cases hkind
      rfl
  · cases hdone

namespace Plan

variable {plan : Plan} {e : Error}

/-- The columns of which a row is asked: that of the condition and those of the result. -/
def columns (plan : Plan) : List BoundColumn :=
  (plan.filter.map Filter.column).toList ++ plan.projection

theorem exists_read_of_project {row : Bytes} (hfails : plan.project row = .error e) :
    ∃ column ∈ plan.projection, column.read row = .error e := by
  have hfill : plan.project row =
      Record.empty.fill (plan.projection.map fun column => (column.name, column.read row)) := by
    rw [project, Record.fill, List.foldlM_map]
  rw [hfill, Record.fill_eq_error_iff, List.map_map] at hfails
  exact List.mem_map.mp (mem_of_firstError? hfails)

/-- What goes wrong with a row goes wrong with a cell of it. -/
theorem exists_read_of_scanRow {row : Bytes} (hfails : plan.scanRow row = .error e) :
    ∃ column ∈ plan.columns, column.read row = .error e := by
  rcases Outcome.bind_eq_error.mp hfails with hadmits | ⟨admitted, -, hfails⟩
  · unfold Filter.admits at hadmits
    split at hadmits
    · cases hadmits
    next filter hfilter =>
      rcases Outcome.bind_eq_error.mp hadmits with hread | ⟨value, -, hdone⟩
      · refine ⟨filter.column, List.mem_append_left _ ?_, hread⟩
        rw [hfilter]
        exact List.mem_singleton_self _
      · cases hdone
  · cases admitted with
    | false => cases hfails
    | true =>
        rcases Outcome.bind_eq_error.mp hfails with hproject | ⟨record, -, hdone⟩
        · obtain ⟨column, hcolumn, hread⟩ := exists_read_of_project hproject
          exact ⟨column, List.mem_append_right _ hcolumn, hread⟩
        · cases hdone

/-- A scan fails only at a corrupt cell. -/
theorem corruption_of_scan {chunk : Chunk} (hfails : plan.scan chunk = .error e) :
    ∃ cause, e = .corruption cause := by
  rw [scan_eq_filterMapM, Outcome.map_eq_error, filterMapM_eq_error_iff] at hfails
  obtain ⟨row, -, hrow⟩ := List.mem_map.mp (mem_of_firstError? hfails)
  obtain ⟨column, -, hread⟩ := exists_read_of_scanRow hrow
  exact Cell.corruption_of_decode hread

/-- A selection is refused for its chunk size or for what it asks of its schema. -/
theorem isValidation_of_ofSelection {chunkSize : Nat} {schema : Schema} {selection : Selection}
    (hfails : ofSelection chunkSize schema selection = .error e) :
    e.isValidation = true ∨ checkChunkSize chunkSize = .error e := by
  rcases Outcome.bind_eq_error.mp hfails with hchunk | ⟨-, -, hfails⟩
  · exact .inr hchunk
  left
  rcases Outcome.bind_eq_error.mp hfails with hfields | ⟨projection, -, hfails⟩
  · obtain ⟨name, -, hname⟩ := exists_of_mapM_eq_error hfields
    exact BoundColumn.isValidation_of_ofName hname
  rcases Outcome.bind_eq_error.mp hfails with hfilter | ⟨filter, -, hdone⟩
  · unfold filterOf at hfilter
    split at hfilter
    · cases hfilter
    · rcases Outcome.bind_eq_error.mp hfilter with hcondition | ⟨filter, -, hdone⟩
      · exact Filter.isValidation_of_ofCondition hcondition
      · cases hdone
  · cases hdone

end Plan

section

variable {m : Type → Type} [Monad m] {Handle : Type}

/-- What a statement is to do, as far as it can be said without the storage: the
table and what to make of its first chunk. -/
def Statement.plan (catalog : Catalog) (chunkSize : Nat) : Statement → Outcome (String × Plan)
  | .select selection => do
    let schema ← catalog.resolve selection.table
    let plan ← Plan.ofSelection chunkSize schema selection
    return (selection.table, plan)
  | .unsupported command => .error (.unsupportedCommand command)

/-- Only what a statement is to do decides whether and how the storage is used. -/
theorem Engine.execute_eq [LawfulMonad m] (engine : Engine m Handle) (statement : Statement) :
    engine.execute statement =
      match statement.plan engine.catalog engine.chunkSize with
      | .error e => return .error e
      | .ok (table, plan) => do return (← engine.readTable table) >>= plan.scan := by
  cases statement with
  | unsupported command => exact execute_unsupported engine command
  | select selection =>
      change engine.select selection = _
      rw [select_eq, Statement.plan]
      cases engine.catalog.resolve selection.table with
      | error e => rfl
      | ok schema =>
          change engine.selectWith schema selection = _
          rw [selectWith_eq]
          cases hplan : Plan.ofSelection engine.chunkSize schema selection with
          | error e =>
              simp only [bind, Except.bind, hplan]
          | ok plan =>
              simp only [bind, Except.bind, hplan]
              rfl

/-- What is wrong with a statement that has nothing to do lies in the statement, or in
the chunk size. -/
theorem Statement.isValidation_of_plan {catalog : Catalog} {chunkSize : Nat} {statement : Statement}
    {e : Error} (hfails : statement.plan catalog chunkSize = .error e) :
    e.isValidation = true ∨ checkChunkSize chunkSize = .error e := by
  cases statement with
  | unsupported command =>
      cases hfails
      exact .inl rfl
  | select selection =>
      rcases Outcome.bind_eq_error.mp hfails with hresolve | ⟨schema, -, hfails⟩
      · unfold Catalog.resolve at hresolve
        split at hresolve
        · cases hresolve
        · cases hresolve
          exact .inl rfl
      · rcases Outcome.bind_eq_error.mp hfails with hplan | ⟨plan, -, hdone⟩
        · exact Plan.isValidation_of_ofSelection hplan
        · cases hdone

theorem Statement.plan_eq_ok {catalog : Catalog} {chunkSize : Nat} {statement : Statement}
    {table : String} {plan : Plan} (hplan : statement.plan catalog chunkSize = .ok (table, plan)) :
    checkChunkSize chunkSize = .ok () ∧
      ∃ selection, statement = .select selection ∧ selection.table = table := by
  cases statement with
  | unsupported command => cases hplan
  | select selection =>
      obtain ⟨schema, -, hplan⟩ := Outcome.bind_eq_ok.mp hplan
      obtain ⟨made, hmade, hdone⟩ := Outcome.bind_eq_ok.mp hplan
      cases hdone
      obtain ⟨⟨⟩, hchunk, -⟩ := Outcome.bind_eq_ok.mp hmade
      exact ⟨hchunk, selection, rfl, rfl⟩

/-- One use of a storage. -/
inductive StorageCall (Handle : Type)
  | openTable (table : String)
  | readChunk (handle : Handle) (offset size : Nat)
  | closeTable (handle : Handle)
  deriving DecidableEq

/-- An action that is a use of a storage, with a log of the uses so far. -/
def StorageCall.recorded {α : Type} (call : StorageCall Handle) (action : m α) :
    StateT (List (StorageCall Handle)) m α := do
  modify (· ++ [call])
  action

/-- The storage with a log of its uses. -/
def Storage.logged (storage : Storage m Handle) :
    Storage (StateT (List (StorageCall Handle)) m) Handle where
  openTable table := (StorageCall.openTable table).recorded (storage.openTable table)
  readChunk handle offset size :=
    (StorageCall.readChunk handle offset size).recorded (storage.readChunk handle offset size)
  closeTable handle := (StorageCall.closeTable handle).recorded (storage.closeTable handle)

end

variable {σ Handle : Type}

/-- A statement over a logged storage: its outcome with the uses of the storage, and the
state after it. -/
def Engine.executeLogged (engine : Engine (StateM σ) Handle) (statement : Statement) (state : σ) :
    (Outcome QueryResult × List (StorageCall Handle)) × σ :=
  ((Engine.execute ⟨engine.catalog, engine.storage.logged, engine.chunkSize⟩ statement).run []).run
    state

/-- A recorded action goes before others with its call at the end of the log. -/
theorem StorageCall.run_recorded_bind {α β : Type} {action : StateM σ α} {state after : σ} {a : α}
    (hrun : action.run state = (a, after)) (call : StorageCall Handle) (log : List (StorageCall Handle))
    (next : α → StateT (List (StorageCall Handle)) (StateM σ) β) :
    ((call.recorded action >>= next).run log).run state =
      ((next a).run (log ++ [call])).run after := by
  have hrecorded : ((call.recorded action).run log).run state = ((a, log ++ [call]), after) := by
    change (((action.run state).1, log ++ [call]), (action.run state).2) = _
    rw [hrun]
  rw [StateT.run_bind, run_bind_of_run hrecorded]

namespace Storage

variable {storage : Storage (StateM σ) Handle} {state : σ}

/-- One visit to a table: what is asked of the storage, the chunk that comes of it, and
the state after it. The table is closed whether or not it could be read, and there is a
chunk only if it could be opened, read and closed. -/
inductive Visit (storage : Storage (StateM σ) Handle) (table : String) (size : Nat) (state : σ) :
    List (StorageCall Handle) → Outcome Chunk → σ → Prop
  | unopened {e : Error} {after : σ} (hopen : (storage.openTable table).run state = (.error e, after)) :
    Visit storage table size state [.openTable table] (.error e) after
  | opened {handle : Handle} {chunk : Outcome Chunk} {closed : Outcome Unit} {opened read after : σ}
    (hopen : (storage.openTable table).run state = (.ok handle, opened))
    (hread : (storage.readChunk handle 0 size).run opened = (chunk, read))
    (hclose : (storage.closeTable handle).run read = (closed, after)) :
    Visit storage table size state
      [.openTable table, .readChunk handle 0 size, .closeTable handle] (do closed; chunk) after

/-- The errors of the storage itself are not such that lie in a request alone. -/
structure NeverRejects (storage : Storage (StateM σ) Handle) : Prop where
  openTable : ∀ table state e, ((storage.openTable table).run state).1 = .error e →
    e.isValidation = false
  readChunk : ∀ handle offset size state e,
    ((storage.readChunk handle offset size).run state).1 = .error e → e.isValidation = false
  closeTable : ∀ handle state e, ((storage.closeTable handle).run state).1 = .error e →
    e.isValidation = false

theorem Visit.not_isValidation (hstorage : storage.NeverRejects) {table : String} {size : Nat}
    {calls : List (StorageCall Handle)} {after : σ} {e : Error}
    (hvisit : storage.Visit table size state calls (.error e) after) : e.isValidation = false := by
  generalize hchunk : Except.error e = chunk at hvisit
  cases hvisit with
  | unopened hopen =>
      cases hchunk
      exact hstorage.openTable table state e (congrArg Prod.fst hopen)
  | opened hopen hread hclose =>
      rcases Outcome.bind_eq_error.mp hchunk.symm with hclosed | ⟨-, -, hfails⟩
      · rw [hclosed] at hclose
        exact hstorage.closeTable _ _ e (congrArg Prod.fst hclose)
      · rw [hfails] at hread
        exact hstorage.readChunk _ _ _ _ e (congrArg Prod.fst hread)

end Storage

namespace Engine

variable {statement : Statement}

/-- Reading the first chunk of a table is one visit to it. -/
theorem readTable_logged (engine : Engine (StateM σ) Handle) (table : String) (state : σ) :
    ∃ calls chunk after, engine.storage.Visit table engine.chunkSize state calls chunk after ∧
      (engine.readTable table).run state = (chunk, after) ∧
      ((readTable ⟨engine.catalog, engine.storage.logged, engine.chunkSize⟩ table).run []).run state =
        ((chunk, calls), after) := by
  rcases hopen : (engine.storage.openTable table).run state with ⟨⟨e⟩ | ⟨handle⟩, opened⟩
  · refine ⟨_, _, _, .unopened hopen, ?_, ?_⟩
    · rw [readTable, run_bind_of_run hopen]
      rfl
    · simp only [readTable, Storage.logged, StorageCall.run_recorded_bind hopen]
      rfl
  · rcases hread : (engine.storage.readChunk handle 0 engine.chunkSize).run opened with ⟨chunk, read⟩
    rcases hclose : (engine.storage.closeTable handle).run read with ⟨closed, after⟩
    refine ⟨_, _, _, .opened hopen hread hclose, ?_, ?_⟩
    · simp only [readTable, run_bind_of_run hopen, run_bind_of_run hread, run_bind_of_run hclose]
      cases closed <;> rfl
    · simp only [readTable, Storage.logged, StorageCall.run_recorded_bind hopen,
        StorageCall.run_recorded_bind hread, StorageCall.run_recorded_bind hclose]
      cases closed <;> rfl

/-- The uses of the storage that a statement makes. -/
def calls (engine : Engine (StateM σ) Handle) (statement : Statement) (state : σ) :
    List (StorageCall Handle) :=
  (engine.executeLogged statement state).1.2

/-- A statement with nothing to do fails without a use of the storage. -/
theorem execute_of_plan_error (engine : Engine (StateM σ) Handle) {e : Error}
    (hplan : statement.plan engine.catalog engine.chunkSize = .error e) (state : σ) :
    (engine.execute statement).run state = (.error e, state) ∧ engine.calls statement state = [] := by
  constructor
  · rw [execute_eq, hplan]
    rfl
  · rw [calls, executeLogged, execute_eq, hplan]
    rfl

/-- Any other statement makes one visit to its table. -/
theorem execute_of_plan (engine : Engine (StateM σ) Handle) {table : String} {plan : Plan}
    (hplan : statement.plan engine.catalog engine.chunkSize = .ok (table, plan)) (state : σ) :
    ∃ chunk after, engine.storage.Visit table engine.chunkSize state (engine.calls statement state)
        chunk after ∧
      (engine.execute statement).run state = (chunk >>= plan.scan, after) := by
  obtain ⟨calls, chunk, after, hvisit, hread, hlogged⟩ := readTable_logged engine table state
  have hcalls : engine.calls statement state = calls := by
    rw [Engine.calls, executeLogged, execute_eq, hplan]
    dsimp only
    rw [StateT.run_bind, run_bind_of_run hlogged]
    rfl
  refine ⟨chunk, after, hcalls ▸ hvisit, ?_⟩
  rw [execute_eq, hplan]
  dsimp only
  rw [run_bind_of_run hread]
  rfl

end Engine

theorem Memory.storage_neverRejects : Memory.storage.NeverRejects where
  openTable table memory e hfails := by
    cases hcontent : memory.content? table with
    | none =>
        simp [storage, hcontent] at hfails
        cases hfails
        rfl
    | some content =>
        rw [openTable_run hcontent] at hfails
        cases hfails
  readChunk handle offset size memory e hfails := by
    cases hfails
  closeTable handle memory e hfails := by
    cases hfails

theorem Storage.fixed_neverRejects (chunk : Chunk) :
    (Storage.fixed chunk : Storage (StateM σ) Unit).NeverRejects where
  openTable table state e hfails := by
    cases hfails
  readChunk handle offset size state e hfails := by
    cases hfails
  closeTable handle state e hfails := by
    cases hfails

theorem Error.ofDisk_not_isValidation (path : String) (fault : DiskFault) :
    (Error.ofDisk path fault).isValidation = false := by
  cases fault <;> rfl

/-- Whatever a disk does, its faults are no validation errors. -/
theorem Files.storage_neverRejects (files : Files (StateM σ)) : files.storage.NeverRejects where
  openTable table state e hfails := by
    change ((files.openTable table).run state).1 = .error e at hfails
    unfold openTable Path.ofTable at hfails
    split at hfails
    next hpath =>
      split at hpath
      · cases hpath
      · cases hpath
        cases hfails
        rfl
    next path hpath =>
      rcases hopen : (files.disk.openFile path).run state with ⟨⟨fault⟩ | ⟨⟨⟩⟩, after⟩
      · rw [run_bind_of_run hopen] at hfails
        cases hfails
        exact Error.ofDisk_not_isValidation path fault
      · rw [run_bind_of_run hopen] at hfails
        cases hfails
  readChunk handle offset size state e hfails := by
    change ((files.readChunk handle offset size).run state).1 = .error e at hfails
    unfold readChunk at hfails
    rcases hread : (files.disk.read handle.path offset (Word.addSaturating size 1)).run state
      with ⟨⟨fault⟩ | ⟨data⟩, after⟩
    · rw [run_bind_of_run hread] at hfails
      cases hfails
      rfl
    · rw [run_bind_of_run hread] at hfails
      cases hfails
  closeTable handle state e hfails := by
    cases hfails

/-- A statement that fails for what is wrong with it, or for the chunk size, fails so
over every storage, and no storage is used. In every other case it makes one visit to
its table, and fails if the visit does: the table is opened and, if it opens, one chunk
is read from its start and it is closed again, also if it could not be read. The
storage is one whose own errors are no validation errors, as those of tables in memory
and in files and of a fixed chunk are. -/
theorem execute_checks_first {σ σ' Handle Handle' : Type} {first : Storage (StateM σ) Handle}
    (hfirst : first.NeverRejects) (second : Storage (StateM σ') Handle') (catalog : Catalog)
    (chunkSize : Nat) (statement : Statement) (state : σ) (state' : σ') :
    (∀ e, ((Engine.execute ⟨catalog, first, chunkSize⟩ statement).run state).1 = .error e →
      e.isValidation = true ∨ checkChunkSize chunkSize = .error e →
        Engine.calls ⟨catalog, first, chunkSize⟩ statement state = [] ∧
        ((Engine.execute ⟨catalog, second, chunkSize⟩ statement).run state').1 = .error e ∧
        Engine.calls ⟨catalog, second, chunkSize⟩ statement state' = []) ∧
    ((∀ e, ((Engine.execute ⟨catalog, first, chunkSize⟩ statement).run state).1 = .error e →
      ¬ (e.isValidation = true ∨ checkChunkSize chunkSize = .error e)) →
        ∃ selection chunk, statement = .select selection ∧
          first.Visit selection.table chunkSize state
            (Engine.calls ⟨catalog, first, chunkSize⟩ statement state) chunk
            ((Engine.execute ⟨catalog, first, chunkSize⟩ statement).run state).2 ∧
          ∀ e, chunk = .error e →
            ((Engine.execute ⟨catalog, first, chunkSize⟩ statement).run state).1 = .error e) ∧
    Memory.storage.NeverRejects ∧ (∀ files : Files (StateM σ), files.storage.NeverRejects) ∧
      ∀ chunk : Chunk, (Storage.fixed chunk : Storage (StateM σ) Unit).NeverRejects := by
  refine ⟨?_, ?_, Memory.storage_neverRejects, Files.storage_neverRejects,
    Storage.fixed_neverRejects⟩
  · intro e houtcome hcause
    cases hplan : statement.plan catalog chunkSize with
    | error e' =>
        obtain ⟨hrun, hcalls⟩ := Engine.execute_of_plan_error ⟨catalog, first, chunkSize⟩ hplan state
        obtain ⟨hrun', hcalls'⟩ :=
          Engine.execute_of_plan_error ⟨catalog, second, chunkSize⟩ hplan state'
        rw [hrun] at houtcome
        cases houtcome
        refine ⟨hcalls, ?_, hcalls'⟩
        rw [hrun']
    | ok planned =>
        -- The statement has something to do, so that the error is not one of these.
        obtain ⟨chunk, after, hvisit, hrun⟩ :=
          Engine.execute_of_plan ⟨catalog, first, chunkSize⟩ hplan state
        have hvalid : e.isValidation = false := by
          rw [hrun] at houtcome
          rcases Outcome.bind_eq_error.mp houtcome with hchunk | ⟨data, -, hscan⟩
          · rw [hchunk] at hvisit
            exact hvisit.not_isValidation hfirst
          · obtain ⟨cause, rfl⟩ := Plan.corruption_of_scan hscan
            rfl
        rw [hvalid, (Statement.plan_eq_ok hplan).1] at hcause
        rcases hcause with hcause | hcause <;> cases hcause
  · intro hcause
    cases hplan : statement.plan catalog chunkSize with
    | error e =>
        obtain ⟨hrun, -⟩ := Engine.execute_of_plan_error ⟨catalog, first, chunkSize⟩ hplan state
        exact absurd (Statement.isValidation_of_plan hplan) (hcause e (by rw [hrun]))
    | ok planned =>
        obtain ⟨chunk, after, hvisit, hrun⟩ :=
          Engine.execute_of_plan ⟨catalog, first, chunkSize⟩ hplan state
        obtain ⟨-, selection, hselection, htable⟩ := Statement.plan_eq_ok hplan
        rw [hrun]
        refine ⟨selection, chunk, hselection, htable ▸ hvisit, ?_⟩
        rintro e rfl
        rfl

/-- Tables that can be opened and not read. How often one is closed is counted. -/
def unreadable : Storage (StateM Nat) Unit where
  openTable _ := return .ok ()
  readChunk _ _ _ := return .error (.io .isDirectory)
  closeTable _ := modifyGet fun closed => (.ok (), closed + 1)

theorem execute_checks_first_users :
    (Engine.calls ⟨.builtin, unreadable, 16⟩ (.select ⟨.named ["name"], "User", none⟩) 0 = [] ∧
      ((Engine.execute ⟨.builtin, Memory.storage, 16⟩ (.select ⟨.named ["name"], "User", none⟩)).run
        .empty).1 = .error (.unknownColumn "name") ∧
      Engine.calls ⟨.builtin, Memory.storage, 16⟩ (.select ⟨.named ["name"], "User", none⟩) .empty =
        []) ∧
      ∃ selection chunk, Statement.select ⟨.all, "User", none⟩ = .select selection ∧
        unreadable.Visit selection.table 16 0
          (Engine.calls ⟨.builtin, unreadable, 16⟩ (.select ⟨.all, "User", none⟩) 0) chunk
          ((Engine.execute ⟨.builtin, unreadable, 16⟩ (.select ⟨.all, "User", none⟩)).run 0).2 ∧
        ∀ e, chunk = .error e →
          ((Engine.execute ⟨.builtin, unreadable, 16⟩ (.select ⟨.all, "User", none⟩)).run 0).1 =
            .error e := by
  have hunreadable : unreadable.NeverRejects := by
    constructor
    · intro table state e hfails
      cases hfails
    · intro handle offset size state e hfails
      cases hfails
      rfl
    · intro handle state e hfails
      cases hfails
  constructor
  · exact (execute_checks_first hunreadable Memory.storage .builtin 16
      (.select ⟨.named ["name"], "User", none⟩) 0 .empty).1 (.unknownColumn "name") (by decide)
      (.inl rfl)
  · refine (execute_checks_first hunreadable Memory.storage .builtin 16
      (.select ⟨.all, "User", none⟩) 0 .empty).2.1 ?_
    intro e hfails
    have hrun : ((Engine.execute ⟨.builtin, unreadable, 16⟩ (.select ⟨.all, "User", none⟩)).run 0).1 =
        .error (.io .isDirectory) := by decide
    rw [hrun] at hfails
    cases hfails
    decide

/-- A table that cannot be read is closed. -/
example : Engine.calls ⟨.builtin, unreadable, 16⟩ (.select ⟨.all, "User", none⟩) 0 =
    [.openTable "User", .readChunk () 0 16, .closeTable ()] := by decide

end Tabular
