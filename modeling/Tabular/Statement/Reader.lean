import Tabular.Condition.Reader
import Tabular.Statement
import Tabular.Token.Reader

/-! # Reading a statement

A selection is `SELECT fields FROM table`, optionally followed by
`WHERE condition`. The first FROM ends the fields and the first WHERE after it
ends the table. Of several errors the one that comes first is reported in the
order: no FROM, the fields, the table, the condition.
-/

namespace Tabular

/-- The tokens before and after the first one that is the keyword. -/
def Token.cutAt? (keyword : String) : List Token → Option (List Token × List Token)
  | [] => none
  | token :: rest =>
    if token.isKeyword keyword then some ([], rest)
    else (Token.cutAt? keyword rest).map fun (before, after) => (token :: before, after)

def Token.isWildcard (token : Token) : Bool :=
  !token.quoted && token.text == "*"

/-- The names without those that occurred before, in the order of their first
occurrence. -/
def Fields.distinct (names : List String) : List String :=
  names.foldl (fun seen name => if name ∈ seen then seen else seen ++ [name]) []

def Fields.ofTokens (tokens : List Token) : Except ParseError Fields :=
  if tokens.isEmpty then .error .missingFields
  else if tokens.any Token.isWildcard then
    if tokens.length = 1 then .ok .all else .error .mixedWildcard
  else .ok (.named (Fields.distinct (tokens.map Token.text)))

namespace Selection

def tableOfTokens : List Token → Except ParseError String
  | [] => .error .missingTable
  | [table] => .ok table.text
  | many => .error (.extraTableTokens (many.map Token.text))

/-- The condition that the tokens after WHERE state, if there is a WHERE. -/
def conditionOfTokens : Option (List Token) → Except ParseError (Option Condition)
  | none => .ok none
  | some tokens => (Condition.ofTokens tokens).map some

/-- The tokens of the table and, if there is a WHERE, those of the condition. -/
def splitWhere (tokens : List Token) : List Token × Option (List Token) :=
  match Token.cutAt? "where" tokens with
  | some (table, condition) => (table, some condition)
  | none => (tokens, none)

def ofTokens (tokens : List Token) : Except ParseError Selection :=
  match Token.cutAt? "from" tokens with
  | none => .error .missingFrom
  | some (fieldTokens, rest) => do
    let (tableTokens, conditionTokens) := splitWhere rest
    let fields ← Fields.ofTokens fieldTokens
    let table ← tableOfTokens tableTokens
    let condition ← conditionOfTokens conditionTokens
    return ⟨fields, table, condition⟩

end Selection

namespace Statement

/-- The tokens of a statement without one delimiter at their end. -/
def withoutTerminator (tokens : List Token) : List Token :=
  if tokens.getLast?.any Token.isDelimiter then tokens.dropLast else tokens

def ofTokens (tokens : List Token) : Except ParseError Statement :=
  match withoutTerminator tokens with
  | [] => .error .emptyStatement
  | command :: arguments =>
    if command.isKeyword "select" then (Selection.ofTokens arguments).map .select
    else
      match Command.ofKeyword? command.text with
      | some known =>
        if command.quoted then .error (.unknownCommand command.text) else .ok (.unsupported known)
      | none => .error (.unknownCommand command.text)

/-- The statement that a text states. A delimiter at its end is optional. -/
def ofText (text : String) : Except ParseError Statement := do
  let tokens ← Token.ofText text
  ofTokens tokens

end Statement

end Tabular
