import Tabular.Engine
import Tabular.Proofs.Plan
import Tabular.Proofs.Reading
import Tabular.Proofs.Warnings

/-! # Statements at one state

While the tables stay as they are, the outcome of a statement is decided by the
first chunk of its table. Running statements does not change the tables, so that
this is so for all statements of a script.
-/

namespace Tabular

/-- What a selection makes of the first chunk of its table. The chunk is asked for
only after the selection has been checked. -/
def Selection.answerFrom (selection : Selection) (chunkSize : Nat) (schema : Schema)
    (chunk : Outcome Chunk) : Outcome QueryResult := do
  let plan ← Plan.ofSelection chunkSize schema selection
  plan.scan (← chunk)

/-- What a statement makes of the first chunks of the tables. -/
def Statement.answerFrom (catalog : Catalog) (chunkSize : Nat) (chunks : String → Outcome Chunk) :
    Statement → Outcome QueryResult
  | .select selection => do
    let schema ← catalog.resolve selection.table
    selection.answerFrom chunkSize schema (chunks selection.table)
  | .unsupported command => .error (.unsupportedCommand command)

namespace Engine

variable {σ Handle : Type} {engine : Engine (StateM σ) Handle} {state : σ}

theorem readTable_eq_readOnce (engine : Engine (StateM σ) Handle) (table : String) :
    engine.readTable table = engine.storage.readOnce table 0 engine.chunkSize := rfl

theorem selectWith_run {schema : Schema} {selection : Selection} {chunk : Outcome Chunk}
    (hread : (engine.readTable selection.table).run state = (chunk, state)) :
    (engine.selectWith schema selection).run state =
      (selection.answerFrom engine.chunkSize schema chunk, state) := by
  rw [selectWith_eq, Selection.answerFrom]
  cases Plan.ofSelection engine.chunkSize schema selection with
  | error e => rfl
  | ok plan =>
      rw [StateT.run_bind, hread]
      rfl

theorem select_run {schema : Schema} {selection : Selection} {chunk : Outcome Chunk}
    (hresolve : engine.catalog.resolve selection.table = .ok schema)
    (hread : (engine.readTable selection.table).run state = (chunk, state)) :
    (engine.select selection).run state =
      (selection.answerFrom engine.chunkSize schema chunk, state) := by
  rw [select_eq, hresolve]
  exact selectWith_run hread

variable {chunks : String → Outcome Chunk}

/-- A statement is answered from the first chunk of its table and changes nothing. -/
theorem execute_run (hread : ∀ table, (engine.readTable table).run state = (chunks table, state))
    (statement : Statement) :
    (engine.execute statement).run state =
      (statement.answerFrom engine.catalog engine.chunkSize chunks, state) := by
  cases statement with
  | unsupported command => rfl
  | select selection =>
      rw [Statement.answerFrom]
      cases hresolve : engine.catalog.resolve selection.table with
      | error e =>
          change (engine.select selection).run state = _
          rw [select_eq, hresolve]
          rfl
      | ok schema => exact select_run hresolve (hread selection.table)

/-- Statements are answered one by one, up to the first that fails. -/
theorem executeAll_run (hread : ∀ table, (engine.readTable table).run state = (chunks table, state))
    (statements : List Statement) :
    (engine.executeAll statements).run state =
      (statements.mapM (Statement.answerFrom engine.catalog engine.chunkSize chunks), state) := by
  induction statements with
  | nil => rfl
  | cons statement rest ih =>
      rw [executeAll_cons, StateT.run_bind, execute_run hread, List.mapM_cons]
      cases Statement.answerFrom engine.catalog engine.chunkSize chunks statement with
      | error e => rfl
      | ok result =>
          change (engine.executeAll rest >>= _).run state = _
          rw [StateT.run_bind, ih]
          rfl

theorem warnedExecuteAll_run
    (hread : ∀ table, (engine.readTable table).run state = (chunks table, state))
    (statements : List Statement) :
    (engine.warnedExecuteAll statements).run state =
      (Statement.warnedAnswers engine.chunkSize
        (Statement.answerFrom engine.catalog engine.chunkSize chunks) statements, state) := by
  induction statements with
  | nil => rfl
  | cons statement rest ih =>
      have hfirst := execute_run hread statement
      rw [warnedExecuteAll, warnedExecute_eq, bind_assoc, run_bind_of_run hfirst,
        Statement.warnedAnswers]
      cases Statement.answerFrom engine.catalog engine.chunkSize chunks statement with
      | error e => rfl
      | ok result =>
          dsimp only
          rw [pure_bind, run_bind_of_run ih]
          rfl

theorem warnedRun_run
    (hread : ∀ table, (engine.readTable table).run state = (chunks table, state))
    (script : String) :
    (engine.warnedRun script).run state =
      (match Script.parse script with
        | .error e => .failed (.parse e)
        | .ok statements => Statement.warnedAnswers engine.chunkSize
          (Statement.answerFrom engine.catalog engine.chunkSize chunks) statements, state) := by
  rw [warnedRun]
  cases Script.parse script with
  | error e => rfl
  | ok statements => exact warnedExecuteAll_run hread statements

/-- A script is answered from the first chunks of its tables. -/
theorem run_run (hread : ∀ table, (engine.readTable table).run state = (chunks table, state))
    (script : String) :
    (engine.run script).run state =
      (match Script.parse script with
        | .error e => .error (.parse e)
        | .ok statements =>
          statements.mapM (Statement.answerFrom engine.catalog engine.chunkSize chunks), state) := by
  rw [run_eq]
  cases Script.parse script with
  | error e => rfl
  | ok statements => exact executeAll_run hread statements

end Engine

def Memory.firstChunk (memory : Memory) (chunkSize : Nat) (table : String) : Outcome Chunk :=
  ((storage.readOnce table 0 chunkSize).run memory).1

theorem Memory.firstChunk_run (memory : Memory) (catalog : Catalog) (chunkSize : Nat)
    (table : String) :
    (Engine.readTable ⟨catalog, storage, chunkSize⟩ table).run memory =
      (memory.firstChunk chunkSize table, memory) := by
  rw [firstChunk, Engine.readTable_eq_readOnce, readOnce_run]

def Files.firstChunk (tree : FileTree) (root : String) (chunkSize : Nat) (table : String) :
    Outcome Chunk :=
  ((Storage.readOnce (storage ⟨FileTree.disk, root⟩) table 0 chunkSize).run tree).1

theorem Files.firstChunk_run (tree : FileTree) (root : String) (catalog : Catalog) (chunkSize : Nat)
    (table : String) :
    (Engine.readTable ⟨catalog, storage ⟨FileTree.disk, root⟩, chunkSize⟩ table).run tree =
      (firstChunk tree root chunkSize table, tree) := by
  rw [firstChunk, Engine.readTable_eq_readOnce, readOnce_run]

end Tabular
