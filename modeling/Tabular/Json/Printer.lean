import Tabular.Json
import Tabular.Text.Decimal

/-! # Writing JSON

A value is written compactly, without any white space, or over several lines,
two spaces deeper inside each bracket. Strings escape quotes, backslashes and
the characters below the space, and nothing else. The marks of reading have no
writing of their own; `null` and the empty key stand for them.
-/

namespace Tabular.Json

def escapeChar (c : Char) : List Char :=
  match c with
  | '"' => ['\\', '"']
  | '\\' => ['\\', '\\']
  | '\x08' => ['\\', 'b']
  | '\x0c' => ['\\', 'f']
  | '\n' => ['\\', 'n']
  | '\r' => ['\\', 'r']
  | '\t' => ['\\', 't']
  | _ =>
    if c.toNat < 0x20 then
      ['\\', 'u', '0', '0', Nat.digitChar (c.toNat / 16), Nat.digitChar (c.toNat % 16)]
    else [c]

def quote (s : String) : String :=
  String.ofList ('"' :: s.toList.flatMap escapeChar ++ ['"'])

def scalar : Json → String
  | bool true => "true"
  | bool false => "false"
  | integer n => Text.ofInt n
  | string s => quote s
  | _ => "null"

mutual

def compact : Json → String
  | array items => "[" ++ ",".intercalate (compactItems items) ++ "]"
  | object entries => "\x7b" ++ ",".intercalate (compactEntries entries) ++ "\x7d"
  | other => scalar other

def compactItems : List Json → List String
  | [] => []
  | item :: rest => compact item :: compactItems rest

def compactEntries : List (Option String × Json) → List String
  | [] => []
  | (key, value) :: rest => (quote (key.getD "") ++ ":" ++ compact value) :: compactEntries rest

end

def newLine (depth : Nat) : String :=
  String.ofList ('\n' :: List.replicate (2 * depth) ' ')

/-- Parts between brackets, each on a line of its own one level deeper. -/
def bracketed (opening closing : String) (depth : Nat) (parts : List String) : String :=
  if parts.isEmpty then opening ++ closing
  else
    opening ++ newLine (depth + 1) ++ ("," ++ newLine (depth + 1)).intercalate parts
      ++ newLine depth ++ closing

mutual

/-- The value over several lines, inside a number of brackets. -/
def indented (depth : Nat) : Json → String
  | array items => bracketed "[" "]" depth (indentedItems (depth + 1) items)
  | object entries => bracketed "\x7b" "\x7d" depth (indentedEntries (depth + 1) entries)
  | other => scalar other

def indentedItems (depth : Nat) : List Json → List String
  | [] => []
  | item :: rest => indented depth item :: indentedItems depth rest

def indentedEntries (depth : Nat) : List (Option String × Json) → List String
  | [] => []
  | (key, value) :: rest =>
    (quote (key.getD "") ++ ": " ++ indented depth value) :: indentedEntries depth rest

end

def pretty (value : Json) : String :=
  indented 0 value

end Tabular.Json
