import Tabular.Text.Shown

/-! # Texts quoted for a reader

An error that lists texts shows each between double quotes. Quotes,
backslashes, the common controls and every character that would not show as
itself are escaped, so that the list reads unambiguously.
-/

namespace Tabular.Text

/-- A character of a quoted text: the short escape if it has one, itself if it
shows, and its code point in hexadecimal otherwise. -/
def quoteChar (c : Char) : List Char :=
  match c with
  | '"' => ['\\', '"']
  | '\\' => ['\\', '\\']
  | '\n' => ['\\', 'n']
  | '\r' => ['\\', 'r']
  | '\t' => ['\\', 't']
  | '\x00' => ['\\', '0']
  | _ => if isShown c then [c] else ['\\', 'u', '\x7b'] ++ Nat.toDigits 16 c.toNat ++ ['\x7d']

def quote (s : String) : String :=
  String.ofList ('"' :: s.toList.flatMap quoteChar ++ ['"'])

def quoteList (texts : List String) : String :=
  "[" ++ ", ".intercalate (texts.map quote) ++ "]"

end Tabular.Text
