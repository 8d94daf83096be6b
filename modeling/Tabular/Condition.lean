import Tabular.Value

/-! # Conditions

A condition compares the value of one field with a literal.
-/

namespace Tabular

/-- The comparisons. -/
inductive Operator
  | equal
  | notEqual
  | less
  | greater
  deriving DecidableEq

namespace Operator

def symbol : Operator → String
  | equal => "="
  | notEqual => "!="
  | less => "<"
  | greater => ">"

def ofSymbol? : String → Option Operator
  | "=" => some equal
  | "!=" => some notEqual
  | "<" => some less
  | ">" => some greater
  | _ => none

def holds (operator : Operator) (order : Ordering) : Bool :=
  match operator with
  | equal => order == .eq
  | notEqual => order != .eq
  | less => order == .lt
  | greater => order == .gt

/-- Each comparison is read back from its sign. -/
theorem ofSymbol?_symbol (operator : Operator) : ofSymbol? operator.symbol = some operator := by
  cases operator <;> rfl

end Operator

/-- A comparison of a field with a literal. -/
structure Condition where
  field : String
  operator : Operator
  value : Value
  deriving DecidableEq

/-- The condition holds of a value of its field. No comparison holds between
values of different kinds. -/
def Condition.holds (condition : Condition) (value : Value) : Bool :=
  match value.compare? condition.value with
  | some order => condition.operator.holds order
  | none => false

theorem Condition.holds_of_compare? {value literal : Value} {order : Ordering}
    (hcompare : value.compare? literal = some order) (field : String) (operator : Operator) :
    (Condition.mk field operator literal).holds value = operator.holds order := by
  rw [holds, hcompare]

end Tabular
