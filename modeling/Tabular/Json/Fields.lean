import Tabular.Error
import Tabular.Json

/-! # Structures in JSON

A structure is written as an object with its fields as keys, in any order, or
as an array of its fields in the order of their declaration. Keys of an object
that are no fields are passed over, provided their values are JSON; a field
must not occur twice. Fields are taken up in the order of the text, so that the
first fault in the text is the one that is reported.
-/

namespace Tabular.Json

variable {σ : Type}

/-- Takes up the fields of a structure written as an object, given those that
have occurred before. -/
def foldEntries (names : List String) (set : σ → String → Json → Except DocumentFault σ) :
    List String → σ → List (Option String × Json) → Except DocumentFault σ
  | _, draft, [] => .ok draft
  | _, _, (none, _) :: _ => .error .malformed
  | seen, draft, (some key, value) :: rest =>
    if key ∈ names then
      if key ∈ seen then .error .malformed
      else
        match set draft key value with
        | .ok draft => foldEntries names set (key :: seen) draft rest
        | .error fault => .error fault
    else if value.isWhole then foldEntries names set seen draft rest
    else .error .malformed

/-- Takes up the fields of a structure written as an array. There may be fewer
items than fields, but not more. -/
def foldItems (set : σ → String → Json → Except DocumentFault σ) :
    List String → σ → List Json → Except DocumentFault σ
  | _, draft, [] => .ok draft
  | [], _, _ :: _ => .error .malformed
  | name :: names, draft, value :: rest =>
    match set draft name value with
    | .ok draft => foldItems set names draft rest
    | .error fault => .error fault

def foldFields (names : List String) (set : σ → String → Json → Except DocumentFault σ)
    (draft : σ) : Json → Except DocumentFault σ
  | .object entries => foldEntries names set [] draft entries
  | .array items => foldItems set names draft items
  | _ => .error .malformed

def asText : Json → Except DocumentFault String
  | .string s => .ok s
  | _ => .error .malformed

/-- The number from `low` on and below `high` that a value is. -/
def asInteger (low high : Int) : Json → Except DocumentFault Int
  | .integer n => if low ≤ n ∧ n < high then .ok n else .error .malformed
  | _ => .error .malformed

def asList {α : Type} (item : Json → Except DocumentFault α) : Json → Except DocumentFault (List α)
  | .array items => items.mapM item
  | _ => .error .malformed

def required {α : Type} : Option α → Except DocumentFault α
  | some value => .ok value
  | none => .error .malformed

end Tabular.Json
