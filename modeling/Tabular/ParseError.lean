import Tabular.Text.Quoted

/-! # Parse errors

Why a statement, a condition or a type text cannot be read. A parse error is
found from the text alone, before anything is executed.
-/

namespace Tabular

/-- What is wrong with a text. -/
inductive ParseError
  | emptyStatement
  | unknownCommand (word : String)
  | missingFields
  | mixedWildcard
  | missingFrom
  | missingTable
  | extraTableTokens (words : List String)
  | emptyWhere
  | missingField
  | missingOperator
  | invalidOperator (text : String)
  /-- Conditions cannot be combined. -/
  | reservedOperator (word : String)
  | missingValue
  /-- What follows the operator is neither a quoted text nor a 64-bit integer. -/
  | invalidValue (text : String)
  | unexpectedToken (text : String)
  | unterminatedQuote
  | invalidType (text : String)
  deriving DecidableEq

def ParseError.message : ParseError → String
  | emptyStatement => "Empty statement"
  | unknownCommand word => "Unknown command: " ++ word
  | missingFields => "Expected at least one field before FROM"
  | mixedWildcard => "Wildcard '*' cannot be combined with named fields"
  | missingFrom => "Expected FROM"
  | missingTable => "Expected a table name after FROM"
  | extraTableTokens words => "Expected exactly one table name, found: " ++ Text.quoteList words
  | emptyWhere => "Expected a condition after WHERE"
  | missingField => "Expected a field name in WHERE condition"
  | missingOperator => "Expected a comparison operator in WHERE condition"
  | invalidOperator text => "Incorrect logical operator " ++ text
  | reservedOperator word => "Operator " ++ word ++ " is reserved but not supported"
  | missingValue => "Expected a value in WHERE condition"
  | invalidValue text => "Invalid value: " ++ text
  | unexpectedToken text => "Unexpected token: " ++ text
  | unterminatedQuote => "Unterminated quoted literal"
  | invalidType text => "Invalid column type: " ++ text

end Tabular
