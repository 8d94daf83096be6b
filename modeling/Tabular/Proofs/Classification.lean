import Tabular.Database
import Tabular.Proofs.Execution
import Tabular.Proofs.Verdict

/-! # Errors before storage

An error that is raised before a storage is used lies in the request, and most such errors are
validation errors. Three are not: a chunk size out of bounds, a column without a value, and an
integer that its column has no room for. To tell which errors are raised before a storage is
used, scripts and appends are run with a log of the uses.
-/

namespace Tabular

section Logs

variable {σ α β Entry : Type}

/-- An action with a log does what another does without one, and the log goes on from what it
was before. -/
def Logs (logged : StateT (List Entry) (StateM σ) α) (action : StateM σ α) : Prop :=
  ∀ log state, ∃ more, (logged.run log).run state =
    (((action.run state).1, log ++ more), (action.run state).2)

theorem Logs.pure (a : α) : Logs (pure a : StateT (List Entry) (StateM σ) α) (pure a) := by
  intro log state
  refine ⟨[], ?_⟩
  rw [List.append_nil]
  rfl

/-- The log of two actions is that of the first and then that of the second. -/
theorem Logs.bind {logged : StateT (List Entry) (StateM σ) α} {action : StateM σ α}
    {next : α → StateT (List Entry) (StateM σ) β} {next' : α → StateM σ β}
    (hfirst : Logs logged action) (hnext : ∀ a, Logs (next a) (next' a)) :
    Logs (logged >>= next) (action >>= next') := by
  intro log state
  obtain ⟨more, hfirst⟩ := hfirst log state
  obtain ⟨others, hnext⟩ := hnext (action.run state).1 (log ++ more) (action.run state).2
  refine ⟨more ++ others, ?_⟩
  rw [StateT.run_bind, run_bind_of_run hfirst, hnext, List.append_assoc]
  rfl

theorem StorageCall.logs_recorded {Handle : Type} (call : StorageCall Handle)
    (action : StateM σ α) : Logs (call.recorded action) action :=
  fun _ _ => ⟨[call], rfl⟩

end Logs

/-- A visit begins with the table being opened. -/
theorem Storage.Visit.calls_ne_nil {σ Handle : Type} {storage : Storage (StateM σ) Handle}
    {table : String} {size : Nat} {state after : σ} {calls : List (StorageCall Handle)}
    {chunk : Outcome Chunk} (hvisit : storage.Visit table size state calls chunk after) :
    calls ≠ [] := by
  cases hvisit <;> exact List.cons_ne_nil _ _

/-- Of what a statement is refused for, the chunk size alone is no validation error. It is
looked at once the table is known. -/
theorem Statement.plan_unvalidated_iff {catalog : Catalog} {chunkSize : Nat}
    {statement : Statement} {e : Error} :
    statement.plan catalog chunkSize = .error e ∧ e.isValidation = false ↔
      ∃ selection schema, statement = .select selection ∧
        catalog.resolve selection.table = .ok schema ∧
        ¬(0 < chunkSize ∧ chunkSize ≤ maxChunkSize) ∧
        e = .invalidArgument (.chunkSize chunkSize) := by
  constructor
  · rintro ⟨hfails, hvalid⟩
    have hchunk : checkChunkSize chunkSize = .error e := by
      rcases isValidation_of_plan hfails with hvalidation | hchunk
      · rw [hvalid] at hvalidation
        cases hvalidation
      · exact hchunk
    obtain ⟨hbounds, rfl⟩ := checkChunkSize_eq_error_iff.mp hchunk
    cases statement with
    | unsupported command => cases hfails
    | select selection =>
        cases hresolve : catalog.resolve selection.table with
        | error e =>
            rw [plan, hresolve] at hfails
            cases hfails
            cases (Catalog.resolve_eq_error.mp hresolve).2
        | ok schema => exact ⟨selection, schema, rfl, hresolve, hbounds, rfl⟩
  · rintro ⟨selection, schema, rfl, hschema, hbounds, rfl⟩
    have hchunk := checkChunkSize_eq_error_iff.mpr ⟨hbounds, rfl⟩
    refine ⟨?_, rfl⟩
    rw [plan, hschema]
    change (Plan.ofSelection chunkSize schema selection >>= _) = _
    rw [Plan.ofSelection, hchunk]
    rfl

namespace Engine

variable {σ Handle : Type} {engine : Engine (StateM σ) Handle} {state : σ} {e : Error}

/-- A statement fails without a use of the storage exactly if there is nothing that it can be
planned to do. -/
theorem execute_unstarted_iff {statement : Statement} :
    ((engine.execute statement).run state).1 = .error e ∧ engine.calls statement state = [] ↔
      statement.plan engine.catalog engine.chunkSize = .error e := by
  constructor
  · rintro ⟨hfails, hnone⟩
    cases hplan : statement.plan engine.catalog engine.chunkSize with
    | error other =>
        rw [(execute_of_plan_error engine hplan state).1] at hfails
        cases hfails
        rfl
    | ok planned =>
        obtain ⟨chunk, after, hvisit, -⟩ := execute_of_plan engine hplan state
        exact absurd hnone hvisit.calls_ne_nil
  · intro hplan
    obtain ⟨hrun, hnone⟩ := execute_of_plan_error engine hplan state
    exact ⟨by rw [hrun], hnone⟩

/-- The engine with a log of the uses of its storage. -/
def logged (engine : Engine (StateM σ) Handle) :
    Engine (StateT (List (StorageCall Handle)) (StateM σ)) Handle :=
  ⟨engine.catalog, engine.storage.logged, engine.chunkSize⟩

/-- The uses of the storage that a script makes. -/
def scriptCalls (engine : Engine (StateM σ) Handle) (script : String) (state : σ) :
    List (StorageCall Handle) :=
  (((engine.logged.run script).run []).run state).1.2

theorem logs_readTable (engine : Engine (StateM σ) Handle) (table : String) :
    Logs (engine.logged.readTable table) (engine.readTable table) := by
  refine (StorageCall.logs_recorded (.openTable table) _).bind fun opened => ?_
  cases opened with
  | error e => exact .pure _
  | ok handle =>
      refine (StorageCall.logs_recorded (.readChunk handle 0 engine.chunkSize) _).bind
        fun chunk => ?_
      refine (StorageCall.logs_recorded (.closeTable handle) _).bind fun closed => ?_
      cases closed with
      | error e => exact .pure _
      | ok done => exact .pure _

theorem logs_execute (engine : Engine (StateM σ) Handle) (statement : Statement) :
    Logs (engine.logged.execute statement) (engine.execute statement) := by
  have hplan : statement.plan engine.logged.catalog engine.logged.chunkSize =
      statement.plan engine.catalog engine.chunkSize := rfl
  rw [execute_eq, execute_eq, hplan]
  cases statement.plan engine.catalog engine.chunkSize with
  | error e => exact .pure _
  | ok planned => exact (logs_readTable engine planned.1).bind fun chunk => .pure _

theorem logs_executeAll (engine : Engine (StateM σ) Handle) (statements : List Statement) :
    Logs (engine.logged.executeAll statements) (engine.executeAll statements) := by
  induction statements with
  | nil => exact .pure _
  | cons statement rest ih =>
      rw [executeAll_cons, executeAll_cons]
      refine (logs_execute engine statement).bind fun outcome => ?_
      cases outcome with
      | error e => exact .pure _
      | ok result => exact ih.bind fun results => .pure _

/-- The uses of the storage that the first statement makes are the first that a script makes. -/
theorem calls_prefix_scriptCalls (engine : Engine (StateM σ) Handle) {script : String}
    {statement : Statement} {rest : List Statement}
    (hparse : Script.parse script = .ok (statement :: rest)) (state : σ) :
    engine.calls statement state <+: engine.scriptCalls script state := by
  rcases hfirst : ((engine.logged.execute statement).run []).run state with ⟨⟨outcome, calls⟩, next⟩
  have hcalls : engine.calls statement state = calls := congrArg (·.1.2) hfirst
  rw [hcalls, scriptCalls, run_eq, hparse]
  dsimp only
  rw [executeAll_cons, StateT.run_bind, run_bind_of_run hfirst]
  cases outcome with
  | error e => exact List.prefix_rfl
  | ok result =>
      obtain ⟨more, hrest⟩ := (logs_executeAll engine rest).bind
        (fun results => Logs.pure (results.map (result :: ·))) calls next
      refine ⟨more, ?_⟩
      exact congrArg (·.1.2) hrest.symm

/-- A first statement without a plan is all that comes of a script. -/
theorem run_of_plan_error {m : Type → Type} [Monad m] [LawfulMonad m] (engine : Engine m Handle)
    {script : String} {statement : Statement} {rest : List Statement}
    (hparse : Script.parse script = .ok (statement :: rest))
    (hplan : statement.plan engine.catalog engine.chunkSize = .error e) :
    engine.run script = return .error e := by
  rw [run_eq, hparse]
  dsimp only
  rw [executeAll_cons, execute_eq, hplan]
  exact pure_bind ..

/-- A script fails without a use of the storage exactly if it cannot be parsed or its first
statement fails so. -/
theorem run_unstarted_iff {script : String} :
    ((engine.run script).run state).1 = .error e ∧ engine.scriptCalls script state = [] ↔
      (∃ fault, Script.parse script = .error fault ∧ e = .parse fault) ∨
        ∃ statement rest, Script.parse script = .ok (statement :: rest) ∧
          statement.plan engine.catalog engine.chunkSize = .error e := by
  constructor
  · rintro ⟨hfails, hnone⟩
    cases hparse : Script.parse script with
    | error fault =>
        rw [run_eq, hparse] at hfails
        cases hfails
        exact .inl ⟨fault, rfl, rfl⟩
    | ok statements =>
        cases statements with
        | nil =>
            rw [run_eq, hparse] at hfails
            cases hfails
        | cons statement rest =>
            cases hplan : statement.plan engine.catalog engine.chunkSize with
            | error other =>
                rw [run_of_plan_error engine hparse hplan] at hfails
                cases hfails
                exact .inr ⟨statement, rest, rfl, hplan⟩
            | ok planned =>
                -- The table of the first statement is opened, whatever comes of that.
                have hfirst := calls_prefix_scriptCalls engine hparse state
                rw [hnone] at hfirst
                obtain ⟨chunk, after, hvisit, -⟩ := execute_of_plan engine hplan state
                exact absurd (List.prefix_nil.mp hfirst) hvisit.calls_ne_nil
  · rintro (⟨fault, hparse, rfl⟩ | ⟨statement, rest, hparse, hplan⟩)
    · rw [scriptCalls, run_eq, run_eq, hparse]
      exact ⟨rfl, rfl⟩
    · rw [scriptCalls, run_of_plan_error engine hparse hplan,
        run_of_plan_error engine.logged hparse hplan]
      exact ⟨rfl, rfl⟩

end Engine

namespace Row

variable {values : List (String × Value)} {column : Column} {schema : Schema} {e : Error}

/-- What is given for the column is at fault, and the error does not tell that the request is:
there is no value, or an integer for which there is no room. -/
inductive Overlooked (values : List (String × Value)) (column : Column) : Error → Prop
  | missing (hmissing : values.lookup column.name = none) :
    Overlooked values column (.invalidArgument (.missingValue column.name))
  | outOfRange {n : Int64} (htype : column.type.isInteger = true)
    (hgiven : values.lookup column.name = some (.integer n))
    (hrange : ¬(-0x80000000 ≤ n.toInt ∧ n.toInt < 0x80000000)) :
    Overlooked values column (.valueOutOfRange n column.type)

/-- Of the faults of a column, the wrong kind of a value alone is a validation error. -/
theorem overlooked_iff :
    Overlooked values column e ↔ Faults values column e ∧ e.isValidation = false := by
  constructor
  · rintro (hmissing | ⟨htype, hgiven, hrange⟩)
    · exact ⟨.missing hmissing, rfl⟩
    · exact ⟨.rejected hgiven (.outOfRange htype hrange), rfl⟩
  · rintro ⟨hmissing | ⟨hgiven, hrejected⟩, hvalid⟩
    · exact .missing hmissing
    · obtain ⟨name, type⟩ := column
      cases hrejected with
      | text => cases hvalid
      | integer => cases hvalid
      | outOfRange htype hrange => exact .outOfRange htype hgiven hrange

/-- Values make up no row, and this is no validation error, exactly if the first column that is
at fault is overlooked and every name is one of a column. -/
theorem encode_unvalidated_iff :
    encode schema values = .error e ∧ e.isValidation = false ↔
      (∀ entry ∈ values, entry.1 ∈ schema.columnNames) ∧ ∃ before column after,
        schema.columns = before ++ column :: after ∧ (∀ earlier ∈ before, Filled values earlier) ∧
          Overlooked values column e := by
  simp only [overlooked_iff]
  constructor
  · rintro ⟨hfails, hvalid⟩
    have hknown : ∀ entry ∈ values, entry.1 ∈ schema.columnNames := by
      intro entry hentry
      by_contra hunknown
      obtain ⟨name, hfirst⟩ := exists_firstUnknown ⟨entry, hentry, hunknown⟩
      rw [encode_of_firstUnknown hfirst] at hfails
      cases hfails
      cases hvalid
    obtain ⟨before, column, after, hcolumns, hfilled, hfaults⟩ :=
      (encode_eq_error_of_known hknown).mp hfails
    exact ⟨hknown, before, column, after, hcolumns, hfilled, hfaults, hvalid⟩
  · rintro ⟨hknown, before, column, after, hcolumns, hfilled, hfaults, hvalid⟩
    have hfails := (encode_eq_error_of_known hknown).mpr
      ⟨before, column, after, hcolumns, hfilled, hfaults⟩
    exact ⟨hfails, hvalid⟩

end Row

namespace Catalog

section

variable {m : Type → Type} [Monad m]

/-- Hands the row that values make up for a table to what appends rows. -/
def appendWith (catalog : Catalog) (appendRow : String → Bytes → m (Outcome Unit))
    (table : String) (values : List (String × Value)) : m (Outcome Unit) := do
  match (do Row.encode (← catalog.resolve table) values) with
  | .error e => return .error e
  | .ok row => appendRow table row

end

variable {σ : Type} {catalog : Catalog} {appendRow : String → Bytes → StateM σ (Outcome Unit)}
  {table : String} {values : List (String × Value)} {state : σ} {e : Error}

/-- The rows that are handed on to be appended. -/
def rowsHanded (catalog : Catalog) (appendRow : String → Bytes → StateM σ (Outcome Unit))
    (table : String) (values : List (String × Value)) (state : σ) : List (String × Bytes) :=
  let logged (table : String) (row : Bytes) : StateT (List (String × Bytes)) (StateM σ) _ := do
    modify (· ++ [(table, row)])
    appendRow table row
  (((catalog.appendWith logged table values).run []).run state).1.2

/-- An append fails before a row is handed on exactly if there is no row. -/
theorem append_unstarted_iff :
    ((catalog.appendWith appendRow table values).run state).1 = .error e ∧
        catalog.rowsHanded appendRow table values state = [] ↔
      (do Row.encode (← catalog.resolve table) values) = .error e := by
  rw [rowsHanded, appendWith, appendWith]
  cases (do Row.encode (← catalog.resolve table) values : Outcome Bytes) with
  | error other =>
      constructor
      · rintro ⟨hfails, -⟩
        cases hfails
        rfl
      · intro hfails
        cases hfails
        exact ⟨rfl, rfl⟩
  | ok row =>
      constructor
      · rintro ⟨-, hnone⟩
        cases hnone
      · intro hfails
        cases hfails

/-- There is no row for an append, and this is no validation error, exactly if the table and
all names are known and the first column at fault is overlooked. -/
theorem row_unvalidated_iff :
    (do Row.encode (← catalog.resolve table) values) = .error e ∧ e.isValidation = false ↔
      ∃ schema before column after, catalog.resolve table = .ok schema ∧
        (∀ entry ∈ values, entry.1 ∈ schema.columnNames) ∧
        schema.columns = before ++ column :: after ∧
        (∀ earlier ∈ before, Row.Filled values earlier) ∧ Row.Overlooked values column e := by
  constructor
  · rintro ⟨hfails, hvalid⟩
    rcases Outcome.bind_eq_error.mp hfails with hresolve | ⟨schema, hschema, hencode⟩
    · obtain ⟨-, rfl⟩ := resolve_eq_error.mp hresolve
      cases hvalid
    · obtain ⟨hknown, before, column, after, hcolumns, hfilled, hoverlooked⟩ :=
        Row.encode_unvalidated_iff.mp ⟨hencode, hvalid⟩
      exact ⟨schema, before, column, after, hschema, hknown, hcolumns, hfilled, hoverlooked⟩
  · rintro ⟨schema, before, column, after, hschema, hknown, hcolumns, hfilled, hoverlooked⟩
    obtain ⟨hencode, hvalid⟩ := Row.encode_unvalidated_iff.mpr
      ⟨hknown, before, column, after, hcolumns, hfilled, hoverlooked⟩
    exact ⟨Outcome.bind_eq_error.mpr (.inr ⟨schema, hschema, hencode⟩), hvalid⟩

end Catalog

/-- What fails before a storage is used fails with a validation error, but for these cases. A
selection from a known table fails for a chunk size out of bounds, and so does a script that
begins with one. An append to a known table, with names of columns only, fails for its first
column at fault if there is no value for it, or an integer for which it has no room. -/
theorem errors_before_storage {σ Handle : Type} (engine : Engine (StateM σ) Handle)
    (appendRow : String → Bytes → StateM σ (Outcome Unit)) (state : σ) (e : Error) :
    (∀ selection, (((engine.select selection).run state).1 = .error e ∧
        engine.calls (.select selection) state = []) ∧ e.isValidation = false ↔
      (∃ schema, engine.catalog.resolve selection.table = .ok schema) ∧
        ¬(0 < engine.chunkSize ∧ engine.chunkSize ≤ maxChunkSize) ∧
        e = .invalidArgument (.chunkSize engine.chunkSize)) ∧
    (∀ script, (((engine.run script).run state).1 = .error e ∧
        engine.scriptCalls script state = []) ∧ e.isValidation = false ↔
      ∃ selection rest, Script.parse script = .ok (.select selection :: rest) ∧
        (∃ schema, engine.catalog.resolve selection.table = .ok schema) ∧
        ¬(0 < engine.chunkSize ∧ engine.chunkSize ≤ maxChunkSize) ∧
        e = .invalidArgument (.chunkSize engine.chunkSize)) ∧
    (∀ table values, (((engine.catalog.appendWith appendRow table values).run state).1 = .error e ∧
        engine.catalog.rowsHanded appendRow table values state = []) ∧ e.isValidation = false ↔
      ∃ schema before column after, engine.catalog.resolve table = .ok schema ∧
        (∀ entry ∈ values, entry.1 ∈ schema.columnNames) ∧
        schema.columns = before ++ column :: after ∧
        (∀ earlier ∈ before, Row.Filled values earlier) ∧ Row.Overlooked values column e) ∧
    ∀ database : Database (StateM σ),
      database.append = database.catalog.appendWith database.files.appendRow := by
  refine ⟨fun selection => ?_, fun script => ?_, fun table values => ?_, fun database => rfl⟩
  · have hselect : engine.select selection = engine.execute (.select selection) := rfl
    rw [hselect, Engine.execute_unstarted_iff, Statement.plan_unvalidated_iff]
    constructor
    · rintro ⟨_, schema, hsame, hschema, hcause⟩
      cases hsame
      exact ⟨⟨schema, hschema⟩, hcause⟩
    · rintro ⟨⟨schema, hschema⟩, hcause⟩
      exact ⟨selection, schema, rfl, hschema, hcause⟩
  · rw [Engine.run_unstarted_iff]
    constructor
    · rintro ⟨⟨fault, -, rfl⟩ | ⟨statement, rest, hparse, hplan⟩, hvalid⟩
      · cases hvalid
      · obtain ⟨selection, schema, rfl, hschema, hcause⟩ :=
          Statement.plan_unvalidated_iff.mp ⟨hplan, hvalid⟩
        exact ⟨selection, rest, hparse, ⟨schema, hschema⟩, hcause⟩
    · rintro ⟨selection, rest, hparse, ⟨schema, hschema⟩, hcause⟩
      obtain ⟨hplan, hvalid⟩ := Statement.plan_unvalidated_iff.mpr
        ⟨selection, schema, rfl, hschema, hcause⟩
      exact ⟨.inr ⟨_, rest, hparse, hplan⟩, hvalid⟩
  · rw [Catalog.append_unstarted_iff, Catalog.row_unvalidated_iff]

/-- The engine reads chunks of no bytes, and the age of a user is missing. -/
theorem errors_before_storage_users :
    let engine : Engine (StateM Memory) Bytes := ⟨.builtin, Memory.storage, 0⟩
    let appendRow : String → Bytes → StateM Memory (Outcome Unit) := fun table row =>
      modifyGet fun memory => (.ok (), memory.appendRow table row)
    ((engine.run "select id from User; drop User").run .empty).1 =
        .error (.invalidArgument (.chunkSize 0)) ∧
      engine.scriptCalls "select id from User; drop User" .empty = [] ∧
      ((Catalog.builtin.appendWith appendRow "User" [("id", .integer 7)]).run .empty).1 =
        .error (.invalidArgument (.missingValue "age")) ∧
      Catalog.builtin.rowsHanded appendRow "User" [("id", .integer 7)] .empty = [] := by
  intro engine appendRow
  obtain ⟨-, hscripts, -, -⟩ := errors_before_storage engine appendRow .empty
    (.invalidArgument (.chunkSize 0))
  obtain ⟨-, -, happends, -⟩ := errors_before_storage engine appendRow .empty
    (.invalidArgument (.missingValue "age"))
  have hparse : Script.parse "select id from User; drop User" =
      .ok [.select ⟨.named ["id"], "User", none⟩, .unsupported .drop] := by decide +kernel
  have hschema : Catalog.builtin.resolve "User" = .ok Catalog.userTable := by decide
  obtain ⟨⟨hscript, hnone⟩, -⟩ := (hscripts _).mpr
    ⟨_, _, hparse, ⟨_, hschema⟩, by decide, rfl⟩
  have hid : Row.Filled [("id", .integer 7)] ⟨"id", .int⟩ :=
    ⟨.integer 7, rfl, .integer rfl (by decide)⟩
  obtain ⟨⟨happend, hkept⟩, -⟩ := (happends "User" [("id", .integer 7)]).mpr
    ⟨_, [⟨"id", .int⟩], ⟨"age", .int⟩, [], hschema, by decide, rfl,
      List.forall_mem_singleton.mpr hid, .missing rfl⟩
  exact ⟨hscript, hnone, happend, hkept⟩

/-- Of two values that an id cannot have, only one is refused with a validation error, though
neither append uses the files. -/
theorem append_unvalidated_users :
    let database : Database (StateM FileTree) := ⟨FileTree.disk, .default, .builtin⟩
    let large := [("id", .integer 2147483648), ("age", .integer 24)]
    let named := [("id", .text "Ann"), ("age", .integer 24)]
    ((database.append "User" large).run (FileTree.empty [])).1 =
        .error (.valueOutOfRange 2147483648 .int) ∧
      Catalog.builtin.rowsHanded database.files.appendRow "User" large (FileTree.empty []) = [] ∧
      (Error.valueOutOfRange 2147483648 .int).isValidation = false ∧
      ((database.append "User" named).run (FileTree.empty [])).1 =
        .error (.typeMismatch "id" .int .text) ∧
      Catalog.builtin.rowsHanded database.files.appendRow "User" named (FileTree.empty []) = [] ∧
      (Error.typeMismatch "id" .int .text).isValidation = true := by
  decide +kernel

end Tabular
