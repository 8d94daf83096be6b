import Tabular.Value

/-! # Records

A record holds the values of some fields of a row in the order in which the
fields were first set. Setting a field again replaces its value in place.
-/

namespace Tabular

/-- Named values in the order of their first insertion. -/
structure Record where
  fields : List (String × Value)
  deriving DecidableEq

namespace Record

def empty : Record := ⟨[]⟩

/-- Sets a field in a list of fields: in place if it is there, else at the end. -/
def insertField (name : String) (value : Value) : List (String × Value) → List (String × Value)
  | [] => [(name, value)]
  | (other, old) :: rest =>
    if other = name then (other, value) :: rest
    else (other, old) :: insertField name value rest

def insert (record : Record) (name : String) (value : Value) : Record :=
  ⟨insertField name value record.fields⟩

def ofList (fields : List (String × Value)) : Record :=
  fields.foldl (fun record (name, value) => record.insert name value) empty

def get? (record : Record) (name : String) : Option Value :=
  (record.fields.find? fun entry => entry.1 == name).map Prod.snd

def size (record : Record) : Nat :=
  record.fields.length

def isEmpty (record : Record) : Bool :=
  record.fields.isEmpty

def names (record : Record) : List String :=
  record.fields.map Prod.fst

def values (record : Record) : List Value :=
  record.fields.map Prod.snd

end Record

end Tabular
