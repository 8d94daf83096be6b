import Tabular.Statement
import Tabular.Text.Decimal

/-! # Writing a statement

A selection is written as `SELECT fields FROM table` and, if it has a condition,
`WHERE field operator value`. Names and texts are quoted whatever they are. Only
the field of a condition stands as it is, since a condition has no quoted fields.
-/

namespace Tabular

namespace Token

/-- A run of characters without a single quote, between single quotes if there are any. -/
def quoteRun (run : List Char) : List Char :=
  if run.isEmpty then [] else '\'' :: run ++ ['\'']

/-- A text as one quoted word: each single quote in it is written between double
quotes, and the runs between them are written between single quotes. -/
def quoteWord (text : String) : List Char :=
  if text.toList.isEmpty then ['\'', '\'']
  else ['"', '\'', '"'].intercalate ((text.toList.splitOn '\'').map quoteRun)

end Token

def Fields.written : Fields → List Char
  | .all => ['*']
  | .named names => [','].intercalate (names.map Token.quoteWord)

def Value.written : Value → List Char
  | .integer n => (Text.ofInt n.toInt).toList
  | .text s => Token.quoteWord s

def Condition.written (condition : Condition) : List Char :=
  condition.field.toList ++ ' ' :: condition.operator.symbol.toList ++ ' ' ::
    condition.value.written

namespace Selection

/-- What is written behind the table. -/
def writtenWhere : Option Condition → List Char
  | none => []
  | some condition => " WHERE ".toList ++ condition.written

def written (selection : Selection) : List Char :=
  "SELECT ".toList ++ selection.fields.written ++ " FROM ".toList ++
    Token.quoteWord selection.table ++ writtenWhere selection.condition

theorem writtenWhere_some (condition : Condition) :
    writtenWhere (some condition) = " WHERE ".toList ++ condition.written := rfl

theorem written_eq (selection : Selection) :
    selection.written = "SELECT ".toList ++ selection.fields.written ++ " FROM ".toList ++
      Token.quoteWord selection.table ++ writtenWhere selection.condition := rfl

/-- The statement that selects as the selection says. -/
def render (selection : Selection) : String :=
  String.ofList selection.written

end Selection

end Tabular
