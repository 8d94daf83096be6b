import Tabular.Text.Character

/-! # Tokens

A statement is a sequence of words. A word is known by its text and by whether
any part of it stood between quotes; only unquoted words can be keywords or the
delimiter of the statement.
-/

namespace Tabular

def delimiter : Char := ';'

/-- One word of a statement. -/
structure Token where
  /-- The word without its quotes. -/
  text : String
  /-- Some part of the word stood between quotes. -/
  quoted : Bool
  deriving DecidableEq

namespace Token

def terminator : Token := ⟨String.singleton delimiter, false⟩

def isDelimiter (token : Token) : Bool :=
  token == terminator

/-- The word is the keyword, in any letter case. A quoted word is no keyword. -/
def isKeyword (token : Token) (keyword : String) : Bool :=
  !token.quoted && Text.lower token.text == Text.lower keyword

def display (token : Token) : String :=
  if token.quoted then "'" ++ token.text ++ "'" else token.text

end Token

end Tabular
