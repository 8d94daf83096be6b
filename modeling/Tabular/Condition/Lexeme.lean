import Tabular.Text.Alphanumeric
import Tabular.Token

/-! # Lexemes of a condition

The words of a condition need not be separated: an unquoted token is cut into
words, numbers and operator signs. Each turn takes one of them off the start of
what is left, as long as it goes on, and at least one character of it. A minus
sign belongs to a number if a digit follows it. A quoted token is a lexeme as it
is.
-/

namespace Tabular

/-- A piece of a condition. -/
inductive Lexeme
  /-- Starts with a character of words that is no ASCII digit. -/
  | word (text : String)
  /-- Starts with an ASCII digit, or with a minus sign before one. -/
  | number (text : String)
  | symbol (text : String)
  | quoted (text : String)
  deriving DecidableEq

namespace Lexeme

def text : Lexeme → String
  | word s => s
  | number s => s
  | symbol s => s
  | quoted s => s

def isWordChar (c : Char) : Bool :=
  Text.isAlphanumeric c || c == '_' || c == '.'

def startsNegative : List Char → Bool
  | '-' :: d :: _ => d.isDigit
  | _ => false

/-- A word or a number starts here. -/
def opensWord : List Char → Bool
  | [] => false
  | c :: rest => isWordChar c || startsNegative (c :: rest)

/-- The signs at the start of a text, and the text behind them. -/
def spanSigns : List Char → List Char × List Char
  | [] => ([], [])
  | c :: rest =>
    if opensWord (c :: rest) then ([], c :: rest)
    else (c :: (spanSigns rest).1, (spanSigns rest).2)

/-- The word or the number that a text starts with. -/
def firstWord (c : Char) (rest : List Char) : Lexeme :=
  let text := String.ofList (c :: rest.takeWhile isWordChar)
  if startsNegative (c :: rest) || c.isDigit then .number text else .word text

/-- The lexeme at the start of a text, and the text behind it. -/
def takeFirst (c : Char) (rest : List Char) : Lexeme × List Char :=
  if opensWord (c :: rest) then (firstWord c rest, rest.dropWhile isWordChar)
  else (.symbol (String.ofList (c :: (spanSigns rest).1)), (spanSigns rest).2)

theorem spanSigns_append (text : List Char) : (spanSigns text).1 ++ (spanSigns text).2 = text := by
  induction text with
  | nil => rfl
  | cons c rest ih =>
      rw [spanSigns]
      split
      · rfl
      · rw [List.cons_append, ih]

theorem toList_firstWord (c : Char) (rest : List Char) :
    (firstWord c rest).text.toList = c :: rest.takeWhile isWordChar := by
  unfold firstWord
  dsimp only
  split <;> exact String.toList_ofList

/-- The lexeme has at least the first character, and nothing is lost. -/
theorem takeFirst_append (c : Char) (rest : List Char) :
    ∃ more, (takeFirst c rest).1.text.toList = c :: more ∧ more ++ (takeFirst c rest).2 = rest := by
  unfold takeFirst
  split
  · exact ⟨rest.takeWhile isWordChar, toList_firstWord c rest, List.takeWhile_append_dropWhile⟩
  · exact ⟨(spanSigns rest).1, String.toList_ofList, spanSigns_append rest⟩

theorem length_takeFirst_lt (c : Char) (rest : List Char) :
    (takeFirst c rest).2.length < (c :: rest).length := by
  obtain ⟨more, -, hrest⟩ := takeFirst_append c rest
  have hlength := congrArg List.length hrest
  rw [List.length_append] at hlength
  rw [List.length_cons]
  omega

/-- The lexemes of a text, taken off its start turn by turn. -/
def scan : List Char → List Lexeme
  | [] => []
  | c :: rest => (takeFirst c rest).1 :: scan (takeFirst c rest).2
termination_by text => text.length
decreasing_by exact length_takeFirst_lt c rest

def ofToken (token : Token) : List Lexeme :=
  if token.quoted then [.quoted token.text] else scan token.text.toList

def ofTokens (tokens : List Token) : List Lexeme :=
  tokens.flatMap ofToken

/-- The word, in upper case, if it is one of those that combine conditions. -/
def combinator? : Lexeme → Option String
  | word s => if Text.upper s = "AND" ∨ Text.upper s = "OR" then some (Text.upper s) else none
  | _ => none

end Lexeme

end Tabular
