import Mathlib.Data.List.Forall2
import Tabular.Engine

/-! # Outcomes and their warnings

An operation without its warnings is made of its parts without their warnings, so that what is
true of outcomes can be proved without them. What a statement warns of is decided by its outcome,
and so the warnings of a script are those of the statements before the first that fails.
-/

namespace Tabular

@[simp] theorem Warned.failed_outcome {α : Type} (e : Error) :
    (failed e : Warned α).outcome = .error e := rfl

namespace Statement

/-- What a statement warns of once it has a result. -/
def warnings (chunkSize : Nat) : Statement → QueryResult → List Warning
  | .select selection, result => result.warnings selection.table chunkSize
  | .unsupported _, _ => []

/-- What statements come to, with their warnings, by what each of them comes to. -/
def warnedAnswers (chunkSize : Nat) (answer : Statement → Outcome QueryResult) :
    List Statement → Warned (List QueryResult)
  | [] => ⟨[], .ok []⟩
  | statement :: rest =>
    match answer statement with
    | .error e => .failed e
    | .ok result =>
      let others := warnedAnswers chunkSize answer rest
      ⟨statement.warnings chunkSize result ++ others.warnings, others.outcome.map (result :: ·)⟩

variable {chunkSize : Nat} {answer : Statement → Outcome QueryResult} {statements : List Statement}
  {results : List QueryResult}

end Statement

namespace Engine

variable {m : Type → Type} [Monad m] [LawfulMonad m] {Handle : Type}

theorem selectWith_eq (engine : Engine m Handle) (schema : Schema) (selection : Selection) :
    engine.selectWith schema selection =
      match Plan.ofSelection engine.chunkSize schema selection with
      | .error e => return .error e
      | .ok plan => return (← engine.readTable selection.table) >>= plan.scan := by
  rw [selectWith, warnedSelectWith]
  cases Plan.ofSelection engine.chunkSize schema selection with
  | error e => simp
  | ok plan =>
      simp only [map_bind]
      refine bind_congr fun chunk => ?_
      cases chunk >>= plan.scan <;> simp

theorem select_eq (engine : Engine m Handle) (selection : Selection) :
    engine.select selection =
      match engine.catalog.resolve selection.table with
      | .error e => return .error e
      | .ok schema => engine.selectWith schema selection := by
  rw [select, warnedSelect]
  cases engine.catalog.resolve selection.table with
  | error e => simp
  | ok schema => rfl

theorem execute_unsupported (engine : Engine m Handle) (command : Command) :
    engine.execute (.unsupported command) = return .error (.unsupportedCommand command) := by
  simp [execute, warnedExecute]

theorem executeAll_cons (engine : Engine m Handle) (statement : Statement)
    (rest : List Statement) :
    engine.executeAll (statement :: rest) = do
      match ← engine.execute statement with
      | .error e => return .error e
      | .ok result => return (← engine.executeAll rest).map (result :: ·) := by
  simp only [executeAll, warnedExecuteAll, execute, bind_map_left, map_bind]
  refine bind_congr fun first => ?_
  cases first.outcome <;> simp

theorem run_eq (engine : Engine m Handle) (script : String) :
    engine.run script =
      match Script.parse script with
      | .error e => return .error (.parse e)
      | .ok statements => engine.executeAll statements := by
  rw [run, warnedRun]
  cases Script.parse script with
  | error e => simp
  | ok statements => rfl

theorem warnedSelectWith_eq (engine : Engine m Handle) (schema : Schema) (selection : Selection) :
    engine.warnedSelectWith schema selection = do
      match ← engine.selectWith schema selection with
      | .error e => return .failed e
      | .ok result => return ⟨result.warnings selection.table engine.chunkSize, .ok result⟩ := by
  rw [selectWith, warnedSelectWith, bind_map_left]
  cases Plan.ofSelection engine.chunkSize schema selection with
  | error e => simp
  | ok plan =>
      simp only [bind_assoc]
      refine bind_congr fun chunk => ?_
      cases chunk >>= plan.scan <;> simp

/-- What a statement warns of is decided by its outcome. -/
theorem warnedExecute_eq (engine : Engine m Handle) (statement : Statement) :
    engine.warnedExecute statement = do
      match ← engine.execute statement with
      | .error e => return .failed e
      | .ok result => return ⟨statement.warnings engine.chunkSize result, .ok result⟩ := by
  cases statement with
  | unsupported command => simp [execute_unsupported, warnedExecute]
  | select selection =>
      change engine.warnedSelect selection = engine.select selection >>= _
      rw [select_eq, warnedSelect]
      cases engine.catalog.resolve selection.table with
      | error e => simp
      | ok schema => exact warnedSelectWith_eq engine schema selection

end Engine

end Tabular
