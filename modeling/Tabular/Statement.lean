import Tabular.Condition
import Tabular.Text.Character

/-! # Statements

A statement selects fields of the rows of one table, or is a command that is
recognised and not carried out.
-/

namespace Tabular

/-- The commands that are recognised only. -/
inductive Command
  | insert
  | delete
  | create
  | alter
  | drop
  deriving DecidableEq

namespace Command

def name : Command → String
  | insert => "INSERT"
  | delete => "DELETE"
  | create => "CREATE"
  | alter => "ALTER"
  | drop => "DROP"

def ofKeyword? (word : String) : Option Command :=
  match Text.lower word with
  | "insert" => some insert
  | "delete" => some delete
  | "create" => some create
  | "alter" => some alter
  | "drop" => some drop
  | _ => none

end Command

/-- The fields of a row that a selection returns. -/
inductive Fields
  /-- Every column, in the order of the schema. -/
  | all
  /-- The named columns, in the order of the request. -/
  | named (names : List String)
  deriving DecidableEq

/-- The rows of a table that meet a condition, reduced to some fields. -/
structure Selection where
  fields : Fields
  table : String
  condition : Option Condition
  deriving DecidableEq

/-- One statement of a script. -/
inductive Statement
  | select (selection : Selection)
  | unsupported (command : Command)
  deriving DecidableEq

end Tabular
