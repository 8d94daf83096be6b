import Tabular.Json.Fields
import Tabular.Json.Printer
import Tabular.Json.Reader
import Tabular.Value

/-! # Values in JSON

A value is an object with a single entry, whose key says the kind.
-/

namespace Tabular.Value

def toJson : Value → Json
  | .integer n => .ofEntries [("Integer", .integer n.toInt)]
  | .text s => .ofEntries [("Text", .string s)]

def ofJson : Json → Except DocumentFault Value
  | .object [(some "Integer", value)] => do
    let n ← value.asInteger (-0x8000000000000000) 0x8000000000000000
    return .integer (Int64.ofInt n)
  | .object [(some "Text", value)] => return .text (← value.asText)
  | _ => .error .malformed

def ofText (text : String) : Outcome Value :=
  let document := Json.ofText text
  match ofJson document.value with
  | .ok value =>
    if document.complete then .ok value else .error (.serialization .malformed)
  | .error fault => .error (.serialization fault)

end Tabular.Value
