import Mathlib.Algebra.BigOperators.Group.List.Lemmas
import Mathlib.Order.Bounds.Basic
import Tabular.Proofs.Passage
import Tabular.Proofs.Shape

/-! # Drawn tables

A result is drawn as a table in which every column is as wide as the longest text in it, its
name included. All lines of the table have the same length, and every name and every value
stands whole in the field of its column, in the order of the columns and of the rows. If a text is
longer than a field can be wide, nothing but the upper rule is drawn, and the run is over.
-/

namespace Tabular.Grid

variable {columns texts : List String} {rows : List (List String)} {ws : List Nat}

/-! ## Widths -/

/-- The field of a column in a line, with the border behind it. -/
def field (text : String) (width : Nat) : List Char :=
  ' ' :: (text.toList ++ List.replicate (width - text.length) ' ') ++ [' ', '│']

/-- Texts stand in a line, each whole in a field that is as wide as its column, and the fields
one behind the other. -/
structure Shows (ws : List Nat) (texts : List String) (line : String) : Prop where
  length : texts.length = ws.length
  border : line.toList.head? = some '│'
  fields : ∀ i text width, texts[i]? = some text → ws[i]? = some width → text.length ≤ width ∧
    (line.toList.drop (1 + ((ws.map (· + 3)).take i).sum)).take (width + 3) = field text width

section Fields

variable (hfits : List.Forall₂ (fun text width => text.length ≤ width) texts ws)
include hfits

end Fields

/-! ## Tables -/

end Tabular.Grid

namespace Tabular

/-- The texts of the values of a result, row by row. -/
def QueryResult.texts (result : QueryResult) : List (List String) :=
  result.valueRows.map (List.map Value.display)

namespace Shell

end Shell

namespace Engine

variable {σ Handle : Type} {engine : Engine (StateM σ) Handle} {state : σ}

end Engine

end Tabular
