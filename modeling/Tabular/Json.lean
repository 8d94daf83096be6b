/-! # JSON values

What a JSON text holds, as far as documents of this library need it. Reading
never fails as a whole: a text that breaks off, or goes on with something else
than JSON, still yields what stood before, with a mark where it broke off. So
the first fault of a document in the order of its text can be reported, be it
one of the text or one of what the text says.
-/

namespace Tabular

/-- A JSON value. -/
inductive Json
  | null
  | bool (b : Bool)
  | integer (n : Int)
  /-- A number with a fraction or an exponent, or a negative zero. No document
  has a place for one, so its value is not kept. -/
  | real
  | string (s : String)
  /-- A string with half of a surrogate pair, which no text can hold. -/
  | unpaired
  | array (items : List Json)
  /-- The entries in the order of the text. A key is missing if it is no text. -/
  | object (entries : List (Option String × Json))
  /-- The text breaks off here. -/
  | cut

namespace Json

mutual

/-- The text of the value does not break off. -/
def isWhole : Json → Bool
  | array items => allWhole items
  | object entries => allEntriesWhole entries
  | cut => false
  | _ => true

def allWhole : List Json → Bool
  | [] => true
  | item :: rest => isWhole item && allWhole rest

def allEntriesWhole : List (Option String × Json) → Bool
  | [] => true
  | (_, value) :: rest => isWhole value && allEntriesWhole rest

end

def ofEntries (entries : List (String × Json)) : Json :=
  object (entries.map fun (key, value) => (some key, value))

end Json

end Tabular
