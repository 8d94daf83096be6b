import Tabular.ParseError
import Tabular.Text.Character
import Tabular.Token

/-! # Cutting a statement into tokens

White space and commas separate words; the delimiter separates them too and is
a word of its own. A quoted region, between two single or two double quotes,
belongs to the word around it with everything in it, so that `a'b c'd` is one
word. A word without characters counts only if it was quoted.
-/

namespace Tabular

namespace Token

/-- The word being read, up to some place of the statement. -/
structure Pending where
  /-- Its characters, the last one first. -/
  word : List Char
  quoted : Bool
  /-- The quote that is still to be closed. -/
  openQuote : Option Char
  deriving DecidableEq

namespace Pending

def empty : Pending := ⟨[], false, none⟩

def push (pending : Pending) (c : Char) : Pending :=
  { pending with word := c :: pending.word }

/-- The tokens that a finished word amounts to: one, or none if there is nothing. -/
def tokens (pending : Pending) : List Token :=
  if pending.word.isEmpty && !pending.quoted then []
  else [⟨String.ofList pending.word.reverse, pending.quoted⟩]

end Pending

def isQuote (c : Char) : Bool :=
  c == '\'' || c == '"'

def isSeparator (c : Char) : Bool :=
  c == ',' || Text.isBlank c

/-- The tokens of the rest of a statement, after the word read so far. -/
def read (pending : Pending) : List Char → Except ParseError (List Token)
  | [] =>
    match pending.openQuote with
    | some _ => .error .unterminatedQuote
    | none => .ok pending.tokens
  | c :: rest =>
    match pending.openQuote with
    | some quote =>
      if c = quote then read { pending with openQuote := none } rest
      else read (pending.push c) rest
    | none =>
      if isQuote c then read { pending with quoted := true, openQuote := some c } rest
      else if c = delimiter then
        match read .empty rest with
        | .ok following => .ok (pending.tokens ++ terminator :: following)
        | .error e => .error e
      else if isSeparator c then
        match read .empty rest with
        | .ok following => .ok (pending.tokens ++ following)
        | .error e => .error e
      else read (pending.push c) rest

def ofText (statement : String) : Except ParseError (List Token) :=
  read .empty statement.toList

end Token

end Tabular
