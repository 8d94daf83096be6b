import Tabular.Condition
import Tabular.Condition.Lexeme
import Tabular.ParseError
import Tabular.Text.Decimal

/-! # Reading a condition

A condition is a field, an operator and a value, and nothing more. A value is a
quoted text or a 64-bit integer; a bare word is none. The first part that does
not fit decides the error.
-/

namespace Tabular

namespace Condition

def readField : List Lexeme → Except ParseError (String × List Lexeme)
  | .word field :: rest => .ok (field, rest)
  | _ => .error .missingField

def readOperator : List Lexeme → Except ParseError (Operator × List Lexeme)
  | .symbol sign :: rest =>
    match Operator.ofSymbol? sign with
    | some operator => .ok (operator, rest)
    | none => .error (.invalidOperator sign)
  | .word text :: _ =>
    match (Lexeme.word text).combinator? with
    | some combinator => .error (.reservedOperator combinator)
    | none => .error (.invalidOperator text)
  | _ => .error .missingOperator

def readValue : List Lexeme → Except ParseError (Value × List Lexeme)
  | .quoted text :: rest => .ok (.text text, rest)
  | .number digits :: rest =>
    match Text.integer? digits.toList with
    | some n => .ok (.integer n, rest)
    | none => .error (.invalidValue digits)
  | other :: _ => .error (.invalidValue other.text)
  | [] => .error .missingValue

def readEnd : List Lexeme → Except ParseError Unit
  | [] => .ok ()
  | extra :: _ =>
    match extra.combinator? with
    | some combinator => .error (.reservedOperator combinator)
    | none => .error (.unexpectedToken extra.text)

def ofLexemes (lexemes : List Lexeme) : Except ParseError Condition := do
  let (field, lexemes) ← readField lexemes
  let (operator, lexemes) ← readOperator lexemes
  let (value, lexemes) ← readValue lexemes
  readEnd lexemes
  return ⟨field, operator, value⟩

def ofTokens (tokens : List Token) : Except ParseError Condition :=
  if tokens.isEmpty then .error .emptyWhere else ofLexemes (Lexeme.ofTokens tokens)

end Condition

end Tabular
