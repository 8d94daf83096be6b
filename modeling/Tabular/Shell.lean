import Tabular.Database
import Tabular.Shell.Grid
import Tabular.Text.Character

/-! # The shell

The shell reads lines and answers each of them. A line that starts with a point
is a request to the shell itself; every other line is a script. The answer to a
line depends on the line, the catalog and the table files only. Errors go to a
stream of their own: those that lie in the statement are told apart from those
of the storage. The same stream takes the warnings that the log lets through.

A run ends where a line asks to leave and at the end of the input, and before that at a line that
is no text or at a result that cannot be drawn. Writing to the streams does not fail here, as it
would where a stream is closed.
-/

namespace Tabular.Shell

def version : String := "flatql v0.1.0"

def prompt : String := "flatql> "

def ended (text : String) : String :=
  text ++ "\n"

def usage : String :=
  "\n" ++ version ++ " - SQL subset over fixed-width table files\n" ++
  "\n" ++
  "Usage:\n" ++
  "  flatql-cli                 start the shell (data in ./databases/default)\n" ++
  "  flatql-cli <config.json>   start the shell with a JSON config\n" ++
  "  flatql-cli --version       print version\n" ++
  "  flatql-cli --help          print this help\n" ++
  "\n" ++
  "Config keys: data_dir, database, chunk_size, catalog_path\n" ++
  "Log level: RUST_LOG (default: warn)\n" ++
  "\n"

def help : String :=
  "\n" ++
  "Commands:\n" ++
  "  .help              show this help\n" ++
  "  .exit, .quit       leave the shell\n" ++
  "  .tables            list tables\n" ++
  "  .schema            show every table's columns\n" ++
  "  .schema <table>    show one table's columns\n" ++
  "\n" ++
  "Statements:\n" ++
  "  SELECT * FROM User;\n" ++
  "  SELECT id, age FROM User WHERE age > 20;\n" ++
  "  SELECT name FROM Person WHERE surname = 'Babitskiy';\n" ++
  "\n" ++
  "Operators: =  !=  <  >\n" ++
  "INSERT, DELETE, CREATE, ALTER and DROP are recognised but not implemented.\n" ++
  "\n"

/-- What a line asks for. -/
inductive Request
  | nothing
  | exit
  | help
  | tables
  | allSchemas
  | schema (table : String)
  | unknown (text : String)
  | script (text : String)
  deriving DecidableEq

def Request.ofLine (line : String) : Request :=
  let text := Text.trim line.toList
  let marker := ".schema ".toList
  match text with
  | [] => .nothing
  | '.' :: _ =>
    match String.ofList text with
    | ".exit" => .exit
    | ".quit" => .exit
    | ".help" => .help
    | ".tables" => .tables
    | ".schema" => .allSchemas
    | other =>
      if marker.isPrefixOf text then
        .schema (String.ofList (Text.trim (text.drop marker.length)))
      else .unknown other
  | _ => .script (String.ofList text)

/-- Which warnings are shown. -/
abbrev Log := Warning → Bool

namespace Log

/-- Where nothing is said about the log, every warning is shown. -/
def all : Log := fun _ => true

def off : Log := fun _ => false

end Log

/-- What is written to the stream of errors at once. -/
inductive Notice
  | message (text : String)
  | warning (given : Warning)
  /-- The last words of a program that gives up. -/
  | panic (text : String)
  deriving DecidableEq

def Notice.text : Notice → String
  | .message text => ended text
  | .warning given => ended ("WARN " ++ given.message)
  | .panic text => ended text

/-- What is written to the two streams, and the exit code if the run ends with it. -/
structure Passage where
  out : String
  err : List Notice
  exit : Option Nat
  deriving DecidableEq

namespace Passage

def silent : Passage := ⟨"", [], none⟩

def say (text : String) : Passage := ⟨text, [], none⟩

def complain (text : String) : Passage := ⟨"", [.message text], none⟩

def warn (log : Log) (warnings : List Warning) : Passage :=
  ⟨"", (warnings.filter log).map .warning, none⟩

def leave (exitCode : Nat) : Passage := ⟨"", [], some exitCode⟩

/-- The end of a program that asked for a field that is too wide. -/
def abort : Passage := ⟨"", [.panic "Formatting argument out of range"], some 101⟩

/-- One passage behind another, unless the run ends with the first. -/
def append (first second : Passage) : Passage :=
  match first.exit with
  | none => ⟨first.out ++ second.out, first.err ++ second.err, second.exit⟩
  | some _ => first

instance : Append Passage := ⟨append⟩

def join (passages : List Passage) : Passage :=
  passages.foldr append silent

end Passage

def listTables (catalog : Catalog) : String :=
  if catalog.isEmpty then ended "No tables found"
  else String.join (catalog.names.map fun name => ended ("  " ++ name))

/-- The columns of a table with their types and offsets, one a line. -/
def describe (schema : Schema) : String :=
  ended ("Table: " ++ schema.name ++ " (" ++ Text.ofNat schema.rowSize ++ " bytes per row)") ++
    String.join (schema.layout.map fun (column, offset) =>
      ended ("  " ++ Grid.padded column.name 16 ++ " " ++ Grid.padded column.type.name 10 ++ " @"
        ++ Text.ofNat offset))

def describeTable (catalog : Catalog) (table : String) : Passage :=
  match catalog.resolve table with
  | .ok schema => .say (describe schema)
  | .error e => .complain ("Error: " ++ e.message)

/-- A table with the number of its rows. The program gives up at a column that is too wide. -/
def showTable (columns : List String) (rows : List (List String)) : Passage :=
  let drawing := Grid.render columns rows
  .say (String.join (drawing.lines.map ended)) ++
    if drawing.complete then .say (ended (Text.ofNat rows.length ++ " row(s) returned"))
    else .abort

/-- Where to go on with a table of which only the beginning was looked at. -/
def note (result : QueryResult) : String :=
  if result.truncated then
    ended ("Note: table is larger than one chunk; more rows start at byte " ++
      Text.ofNat (result.resumeOffset.getD 0))
  else ""

def showResult (result : QueryResult) : Passage :=
  let rows := result.valueRows
  let body :=
    if rows.isEmpty then .say (ended "No results")
    else showTable result.columns (rows.map (List.map Value.display))
  body ++ .say (note result)

/-- The outcome of a script. If it fails nothing of it is shown. -/
def showOutcome : Outcome (List QueryResult) → Passage
  | .ok results => .join (results.map showResult)
  | .error e => .complain ((if e.isValidation then "Invalid statement: " else "Error: ") ++ e.message)

variable {m : Type → Type} [Monad m]

def answer (database : Database m) (log : Log) : Request → m Passage
  | .nothing => return .silent
  | .exit => return .leave 0
  | .help => return .say help
  | .tables => return .say (listTables database.catalog)
  | .allSchemas => return .say (String.join (database.catalog.tables.map describe))
  | .schema table => return describeTable database.catalog table
  | .unknown text => return .complain ("Unknown command: " ++ text ++ " (try '.help')")
  | .script text => do
    let done ← database.warnedExecute text
    return .warn log done.warnings ++ showOutcome done.outcome

/-- The end of a run at a line that is no text. -/
def unreadable : Passage :=
  .complain "Error: stream did not contain valid UTF-8" ++ .leave 1

/-- The reply to a line as it was read. -/
def hear (database : Database m) (log : Log) (line : Bytes) : m Passage :=
  match Utf8.decode line with
  | .error _ => return unreadable
  | .ok text => answer database log (.ofLine text)

def banner (database : Database m) : String :=
  ended version ++ ended ("Database: " ++ database.config.databaseDir) ++
    ended (ended "Type '.help' for help, '.exit' to quit")

/-- Answers lines up to the one with which the run ends. Before every line, and before
the end of the lines is noticed, there is a prompt. -/
def converse (database : Database m) (log : Log) : List Bytes → m Passage
  | [] => return .say prompt ++ .leave 0
  | line :: rest => do
    let reply ← hear database log line
    if reply.exit.isSome then return .say prompt ++ reply
    let following ← converse database log rest
    return .say prompt ++ reply ++ following

/-- How a run of the shell begins. -/
inductive Startup (m : Type → Type)
  | finished (passage : Passage)
  | ready (database : Database m)

/-- The failure of a run, with what was being done and the whole cause. -/
def Startup.failed (doing : String) (e : Error) : Startup m :=
  .finished (.complain ("Error: " ++ doing ++ ": " ++ e.report) ++ .leave 1)

def openDatabase (disk : Disk m) (config : Config) : m (Startup m) := do
  match ← Database.ofConfig disk config with
  | .ok database => return .ready database
  | .error e => return .failed "failed to open database" e

/-- Begins a run. The first argument is a request for information or the path of
a configuration; further arguments are not looked at. -/
def start (disk : Disk m) (arguments : List String) : m (Startup m) := do
  match arguments.head? with
  | none => openDatabase disk .default
  | some "--version" => return .finished (.say (ended version) ++ .leave 0)
  | some "-v" => return .finished (.say (ended version) ++ .leave 0)
  | some "--help" => return .finished (.say usage ++ .leave 0)
  | some "-h" => return .finished (.say usage ++ .leave 0)
  | some path =>
    match ← Config.ofFile disk path with
    | .ok config => openDatabase disk config
    | .error e => return .failed ("failed to load config from " ++ path) e

/-- The lines of an input, without the line feeds that end them. -/
def linesOf (input : Bytes) : List Bytes :=
  let parts := input.splitOn 0x0A
  if parts.getLast? = some [] then parts.dropLast else parts

/-- A whole run over an input. -/
def session (disk : Disk m) (log : Log) (arguments : List String) (input : Bytes) : m Passage := do
  match ← start disk arguments with
  | .finished passage => return passage
  | .ready database =>
    let conversation ← converse database log (linesOf input)
    return .say (banner database) ++ conversation

/-- The texts that are written to the two streams. -/
structure Reply where
  out : String
  err : String
  deriving DecidableEq

/-- A whole run over a text without a log: what it writes, and its exit code. -/
def run (disk : Disk m) (arguments : List String) (input : String) : m (Reply × Nat) := do
  let passage ← session disk .off arguments (Utf8.encode input)
  return (⟨passage.out, String.join (passage.err.map Notice.text)⟩, passage.exit.getD 0)

end Tabular.Shell
