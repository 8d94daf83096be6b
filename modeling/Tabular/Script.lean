import Tabular.Statement.Reader
import Tabular.Text.Character

/-! # Scripts

A script is a text of statements, each ended by a delimiter or a line feed.
Quotes do not protect either of them: a script is cut before its statements are
read. Blank statements are skipped, and the first statement that cannot be read
is the error of the whole script.
-/

namespace Tabular.Script

def isTerminator (c : Char) : Bool :=
  c == delimiter || c == '\n'

/-- The statement of what was read, which is given in reverse. It has one delimiter
at its end. -/
def ended (current : List Char) : String :=
  String.ofList (delimiter :: current).reverse

/-- Reads a script. What was read since the last terminator is carried along, in
reverse. What is left of it at the end is a statement unless it is white space. -/
def cut (current : List Char) : List Char → List String
  | [] => if (Text.trim current.reverse).isEmpty then [] else [ended current]
  | c :: rest => if isTerminator c then ended current :: cut [] rest else cut (c :: current) rest

/-- The statements of a script, each with one delimiter at its end. -/
def statements (source : String) : List String :=
  cut [] source.toList

/-- The statement holds nothing but white space and delimiters. -/
def isBlank (statement : String) : Bool :=
  statement.toList.all fun c => c == delimiter || Text.isBlank c

/-- The statements of a script that are not blank. -/
def parse (source : String) : Except ParseError (List Statement) :=
  ((statements source).filter fun statement => !isBlank statement).mapM Statement.ofText

end Tabular.Script
