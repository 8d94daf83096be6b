import Tabular.Proofs.Catalog
import Tabular.Proofs.Database
import Tabular.Proofs.Decoding
import Tabular.Proofs.Execution
import Tabular.Proofs.Grid
import Tabular.Proofs.Lines
import Tabular.Proofs.Trim

/-! # Dialogues with the shell

A shell remembers nothing. What it says to a line is decided by the text of the line without the
white space around it, by the catalog and by the table files, and no line changes a file. So what
it writes in a run is put together of its replies to single lines, up to the line with which the
run ends. Which warnings are among the replies is a matter of the log.
-/

namespace Tabular

namespace FileTree

variable {tree other : FileTree} {path : String}

end FileTree

namespace Database

variable {m : Type → Type} {database : Database m} {config : Config} {catalog : Catalog}
  {tree other : FileTree}

end Database

namespace Shell

/-- The text of a line, without the white space around it. -/
def trimmed (line : String) : String :=
  String.ofList (Text.trim line.toList)

section Lines

variable {line : String}

end Lines

section Replies

variable {config : Config} {catalog : Catalog} {log : Log} {tree other : FileTree}

theorem answer_script_run (database : Database (StateM FileTree)) (log : Log) (tree : FileTree)
    (script : String) :
    (answer database log (.script script)).run tree =
      (.warn log ((database.warnedExecute script).run tree).1.warnings ++
          showOutcome ((database.warnedExecute script).run tree).1.outcome,
        ((database.warnedExecute script).run tree).2) :=
  rfl

/-- Answering changes no file. -/
theorem answer_run (config : Config) (catalog : Catalog) (log : Log) (tree : FileTree)
    (request : Request) :
    (answer ⟨FileTree.disk, config, catalog⟩ log request).run tree =
      (((answer ⟨FileTree.disk, config, catalog⟩ log request).run tree).1, tree) := by
  cases request with
  | script text => rw [answer_script_run, Database.warnedExecute_run]
  | _ => rfl

end Replies

/-! ## What is said to a text -/

section Saying

variable {database : Database (StateM FileTree)} {log : Log} {tree : FileTree}

end Saying

/-! ## Runs -/

section Runs

variable (config : Config) (catalog : Catalog) (log : Log) (tree : FileTree)

end Runs

end Shell

end Tabular
