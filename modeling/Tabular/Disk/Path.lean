/-! # Paths

A path is a text whose parts are separated by slashes. Joining puts one slash
between two paths where none is yet; nothing is normalised.
-/

namespace Tabular.Path

/-- The path of something below a directory. A path that starts with a slash
stands on its own. -/
def join (directory path : String) : String :=
  if path.toList.head? = some '/' then path
  else if directory.toList = [] ∨ directory.toList.getLast? = some '/' then directory ++ path
  else directory ++ "/" ++ path

/-- The texts between the slashes of a path. There is one more than slashes. -/
def parts (path : String) : List String :=
  (path.toList.splitOn '/').map String.ofList

def stays (part : String) : Bool :=
  part == "" || part == "."

/-- The path without the parts at its end that stay where they are. Its first
part is kept, so that a path from the root or from the current directory remains
one. -/
def trimmed (path : String) : String :=
  match parts path with
  | [] => path
  | first :: rest =>
    match rest.reverse.dropWhile stays with
    | [] => if first = "" ∧ path ≠ "" then "/" else first
    | kept => "/".intercalate (first :: kept.reverse)

/-- The text can be the name of one file inside a directory. -/
def isFileName (name : String) : Bool :=
  name != "" && name != "." && name != ".."
    && !name.toList.contains '/' && !name.toList.contains '\\'

end Tabular.Path
