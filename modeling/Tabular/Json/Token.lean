/-! # JSON tokens

A JSON text is cut into brackets, separators, strings, numbers and the three
constants. Where it is none of these the tokens end in a fault.
-/

namespace Tabular

/-- A token of a JSON text. -/
inductive JsonToken
  | beginObject
  | endObject
  | beginArray
  | endArray
  | colon
  | comma
  | null
  | bool (b : Bool)
  /-- A number; its value is kept if it is an integer. -/
  | number (n : Option Int)
  /-- A string; its text is missing if it holds half of a surrogate pair. -/
  | string (s : Option String)
  /-- The text goes on with something else than JSON, or ends inside a string. -/
  | fault
  deriving DecidableEq

namespace JsonToken

/-- A part of a string: a character, or a 16-bit unit that was escaped. -/
inductive Unit16
  | plain (c : Char)
  | escaped (unit : Nat)
  deriving DecidableEq

/-- The text of a string. An escaped high surrogate has to be followed by an
escaped low one, and the two are one character; no low one stands alone. -/
def textOfUnits : List Unit16 → Option (List Char)
  | [] => some []
  | .plain c :: rest => (textOfUnits rest).map (c :: ·)
  | .escaped high :: rest =>
    if 0xD800 ≤ high ∧ high < 0xDC00 then
      match rest with
      | .escaped low :: rest =>
        if 0xDC00 ≤ low ∧ low < 0xE000 then
          (textOfUnits rest).map
            (Char.ofNat (0x10000 + (high - 0xD800) * 0x400 + (low - 0xDC00)) :: ·)
        else none
      | _ => none
    else if 0xDC00 ≤ high ∧ high < 0xE000 then none
    else (textOfUnits rest).map (Char.ofNat high :: ·)

def shortEscape? : Char → Option Char
  | '"' => some '"'
  | '\\' => some '\\'
  | '/' => some '/'
  | 'b' => some '\x08'
  | 'f' => some '\x0c'
  | 'n' => some '\n'
  | 'r' => some '\r'
  | 't' => some '\t'
  | _ => none

def hexValue? (c : Char) : Option Nat :=
  if c.isDigit then some (c.toNat - '0'.toNat)
  else if 'a' ≤ c ∧ c ≤ 'f' then some (c.toNat - 'a'.toNat + 10)
  else if 'A' ≤ c ∧ c ≤ 'F' then some (c.toNat - 'A'.toNat + 10)
  else none

/-- The text is an exponent, or nothing. -/
def isExponent : List Char → Bool
  | [] => true
  | c :: rest =>
    let digits := match rest with
      | '+' :: digits => digits
      | '-' :: digits => digits
      | _ => rest
    (c == 'e' || c == 'E') && !digits.isEmpty && digits.all Char.isDigit

def isFraction : List Char → Bool
  | '.' :: rest =>
    !(rest.takeWhile Char.isDigit).isEmpty && isExponent (rest.dropWhile Char.isDigit)
  | rest => isExponent rest

/-- The number that a text is. Its whole part has no leading zeros. A negative
zero is no integer. -/
def number? (text : List Char) : Option (Option Int) :=
  let negative := text.head? = some '-'
  let unsigned := if negative then text.drop 1 else text
  let whole := unsigned.takeWhile Char.isDigit
  let rest := unsigned.dropWhile Char.isDigit
  if whole = [] ∨ (whole.head? = some '0' ∧ whole.length ≠ 1) then none
  else if rest = [] then
    let n := Nat.ofDigitChars 10 whole 0
    if negative then some (if n = 0 then none else some (-(n : Int))) else some (some (n : Int))
  else if isFraction rest then some none
  else none

/-- The token of a text of letters, digits, signs and points. -/
def ofRun (text : List Char) : JsonToken :=
  match String.ofList text with
  | "null" => null
  | "true" => bool true
  | "false" => bool false
  | _ =>
    match number? text with
    | some n => number n
    | none => fault

def isRunChar (c : Char) : Bool :=
  c.isAlphanum || c == '+' || c == '-' || c == '.'

/-- What has been read of the current token. -/
inductive Scan
  | between
  /-- Part of a constant or a number, the last character first. -/
  | run (done : List Char)
  /-- Part of a string, the last unit first. -/
  | string (done : List Unit16)
  /-- The same, and a backslash. -/
  | escape (done : List Unit16)
  /-- The same, and part of a 16-bit unit of which `left` more digits follow. -/
  | hex (done : List Unit16) (left value : Nat)

/-- What a character amounts to where a token may start. -/
def opening (c : Char) : List JsonToken × Scan :=
  match c with
  | '\x7b' => ([beginObject], .between)
  | '\x7d' => ([endObject], .between)
  | '[' => ([beginArray], .between)
  | ']' => ([endArray], .between)
  | ':' => ([colon], .between)
  | ',' => ([comma], .between)
  | '"' => ([], .string [])
  | ' ' => ([], .between)
  | '\t' => ([], .between)
  | '\n' => ([], .between)
  | '\r' => ([], .between)
  | _ => if isRunChar c then ([], .run [c]) else ([fault], .between)

/-- The tokens of the rest of a text. After a fault there are none. -/
def scan : Scan → List Char → List JsonToken
  | .between, [] => []
  | .run done, [] => [ofRun done.reverse]
  | _, [] => [fault]
  | .between, c :: rest =>
    let (tokens, next) := opening c
    tokens ++ scan next rest
  | .run done, c :: rest =>
    if isRunChar c then scan (.run (c :: done)) rest
    else
      let (tokens, next) := opening c
      ofRun done.reverse :: tokens ++ scan next rest
  | .string done, c :: rest =>
    if c = '"' then string ((textOfUnits done.reverse).map String.ofList) :: scan .between rest
    else if c = '\\' then scan (.escape done) rest
    else if c.toNat < 0x20 then [fault]
    else scan (.string (.plain c :: done)) rest
  | .escape done, c :: rest =>
    if c = 'u' then scan (.hex done 4 0) rest
    else
      match shortEscape? c with
      | some char => scan (.string (.plain char :: done)) rest
      | none => [fault]
  | .hex done left value, c :: rest =>
    match hexValue? c with
    | none => [fault]
    | some digit =>
      let value := value * 16 + digit
      if left = 1 then scan (.string (.escaped value :: done)) rest
      else scan (.hex done (left - 1) value) rest

def ofText (text : String) : List JsonToken :=
  scan .between text.toList

end JsonToken

end Tabular
