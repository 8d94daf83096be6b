/-! # Result tables

Rows of texts are drawn as a table with ruled lines. Every column is as wide as
the widest text in it, its name included; nothing is ever cut. Widths are
counted in characters. A column can be too wide for its fields to be formatted:
then the drawing stops at the first line that has fields.
-/

namespace Tabular.Grid

/-- The widths of columns once a row has to fit into them. -/
def widen : List Nat → List String → List Nat
  | [], _ => []
  | widths, [] => widths
  | width :: widths, cell :: row => max width cell.length :: widen widths row

def widths (columns : List String) (rows : List (List String)) : List Nat :=
  rows.foldl widen (columns.map String.length)

def padded (text : String) (width : Nat) : String :=
  text ++ String.ofList (List.replicate (width - text.length) ' ')

/-- The greatest width of a field, where the width is not known before the program runs. -/
def maxWidth : Nat := 65535

/-- The field of a column in a line. A column that is too wide has none. -/
def field? (text : String) (width : Nat) : Option String :=
  if width ≤ maxWidth then some (" " ++ padded text width ++ " ") else none

/-- A ruled line with the given ends and crossings. -/
def rule (left cross right : String) (widths : List Nat) : String :=
  left ++ cross.intercalate (widths.map fun width => String.ofList (List.replicate (width + 2) '─'))
    ++ right

def line? (widths : List Nat) (row : List String) : Option String := do
  let fields ← (row.zip widths).mapM fun (text, width) => field? text width
  return "│" ++ "│".intercalate fields ++ "│"

/-- The lines of a table as far as they were drawn. -/
structure Drawing where
  lines : List String
  complete : Bool
  deriving DecidableEq

/-- Draws lines one after the other, up to the first that there is not. -/
def draw : List (Option String) → Drawing
  | [] => ⟨[], true⟩
  | none :: _ => ⟨[], false⟩
  | some line :: rest =>
    let following := draw rest
    ⟨line :: following.lines, following.complete⟩

def render (columns : List String) (rows : List (List String)) : Drawing :=
  let ws := widths columns rows
  draw (some (rule "┌" "┬" "┐" ws) :: line? ws columns :: some (rule "├" "┼" "┤" ws) ::
    (rows.map (line? ws) ++ [some (rule "└" "┴" "┘" ws)]))

end Tabular.Grid
