import Tabular.Disk.Fault
import Tabular.ParseError
import Tabular.Schema
import Tabular.Statement
import Tabular.Utf8
import Tabular.Word

/-! # Errors

Everything that can go wrong between a text and its results, by cause. The
wording of each cause is in one place, `message`. The causes that lie in the
request alone, and not in the storage, are the validation errors.
-/

namespace Tabular

/-- Why the bytes of a cell are no value. -/
inductive Corruption
  | shortCell (type : ColumnType) (available : Nat)
  | badText (type : ColumnType) (fault : Utf8.Fault)
  deriving DecidableEq

def Corruption.message : Corruption → String
  | shortCell type available =>
    "need " ++ Text.ofNat type.width ++ " bytes to decode " ++ type.name ++ ", have "
      ++ Text.ofNat available
  | badText type fault => "invalid UTF-8 in " ++ type.name ++ " value: " ++ fault.message

/-- The largest chunk that a query may read, in bytes. -/
def maxChunkSize : Nat := 1024 * 1024 * 1024

/-- Why an argument is refused. -/
inductive InvalidArgument
  | schema (fault : Schema.Fault)
  | tableExists (table : String)
  | missingValue (column : String)
  | chunkSize (size : Nat)
  | databaseName (name : String)
  | tableFileName (name : String)
  deriving DecidableEq

def InvalidArgument.message : InvalidArgument → String
  | schema fault => fault.message
  | tableExists table => "Table '" ++ table ++ "' already exists"
  | missingValue column => "missing value for column '" ++ column ++ "'"
  | chunkSize size =>
    "chunk_size must be between 1 and " ++ Text.ofNat maxChunkSize ++ " bytes, got "
      ++ Text.ofNat size
  | databaseName name => "invalid database name: '" ++ name ++ "'"
  | tableFileName name => "invalid table file name: '" ++ name ++ "'"

/-- Why a JSON document cannot be read. -/
inductive DocumentFault
  /-- The text is no JSON, or not of the expected shape. -/
  | malformed
  | columnType (error : ParseError)
  | schema (fault : Schema.Fault)
  deriving DecidableEq

namespace DocumentFault

/-- The text without a position `at line … column …` that it ends with. A fault
of a document has a position of its own and gives up one from its text. -/
def withoutPosition (text : List Char) : List Char :=
  let split (marker : String) (reversed : List Char) : Option (List Char) :=
    let digits := reversed.takeWhile Char.isDigit
    let rest := reversed.dropWhile Char.isDigit
    match Text.unsigned? Word.count digits.reverse with
    | some _ =>
      if marker.toList.reverse.isPrefixOf rest then some (rest.drop marker.length) else none
    | none => none
  match (split " column " text.reverse).bind (split " at line ") with
  | some rest => rest.reverse
  | none => text

def message : DocumentFault → String
  | malformed => "malformed document"
  | columnType error => String.ofList (withoutPosition error.message.toList)
  | schema fault =>
    String.ofList (withoutPosition ("Invalid argument: " ++ fault.message).toList)

end DocumentFault

/-- What a request can fail with. -/
inductive Error
  | parse (error : ParseError)
  | unknownTable (table : String)
  | unknownColumn (column : String)
  /-- The command is recognised and not carried out. -/
  | unsupportedCommand (command : Command)
  /-- A column cannot hold or be compared with a value of the kind. -/
  | typeMismatch (column : String) (expected : ColumnType) (found : ValueKind)
  | valueOutOfRange (value : Int64) (type : ColumnType)
  | io (fault : DiskFault)
  /-- There is no file for the table, or none at the path. -/
  | fileNotFound (path : String)
  | corruption (cause : Corruption)
  | invalidArgument (cause : InvalidArgument)
  | serialization (fault : DocumentFault)
  deriving DecidableEq

namespace Error

def message : Error → String
  | parse error => "Parse error: " ++ error.message
  | unknownTable table => "Table not found: " ++ table
  | unknownColumn column => "Column not found: " ++ column
  | unsupportedCommand command => "Command not implemented: " ++ command.name
  | typeMismatch column expected found =>
    "Type mismatch on column '" ++ column ++ "': expected " ++ expected.name ++ ", got "
      ++ found.name
  | valueOutOfRange value type =>
    "Value " ++ Text.ofInt value.toInt ++ " out of range for " ++ type.name
  | io fault => "IO error: " ++ fault.message
  | fileNotFound path => "File not found: " ++ path
  | corruption cause => "Data corruption: " ++ cause.message
  | invalidArgument cause => "Invalid argument: " ++ cause.message
  | serialization fault => "Serialization error: " ++ fault.message

/-- The error in words, followed by the words of the cause it stands for, if that
is an error of its own. -/
def report (error : Error) : String :=
  match error with
  | parse cause => error.message ++ ": " ++ cause.message
  | io fault => error.message ++ ": " ++ fault.message
  | _ => error.message

/-- The error lies in the request: it is found from the text, the catalog and
the values given, before any storage is accessed. -/
def isValidation : Error → Bool
  | parse _ => true
  | unknownTable _ => true
  | unknownColumn _ => true
  | unsupportedCommand _ => true
  | typeMismatch .. => true
  | _ => false

/-- The error of a file that cannot be opened: a missing file is named. -/
def ofDisk (path : String) : DiskFault → Error
  | .notFound => fileNotFound path
  | fault => io fault

end Error

/-- The outcome of an operation. -/
abbrev Outcome := Except Error

end Tabular
