import DiceArithmetic.Lexeme
import DiceArithmetic.Position

/-!
# Tokens

A token is a lexeme together with the place where it begins. `Lexed.ofString` cuts a whole line into
tokens, and stops at the first character that begins no lexeme.
-/

namespace DiceArithmetic

/-- A lexeme at its place in the line. -/
structure Token where
  lexeme : Lexeme
  start : Position
  deriving DecidableEq, Repr

/-- A character that begins no lexeme, at its place in the line. -/
structure LexicalError where
  position : Position
  character : Char
  deriving DecidableEq, Repr

/-- What cutting a line into tokens gives: the tokens in order, and the error that ended the work
early, if there was one. -/
structure Lexed where
  tokens : List Token
  error? : Option LexicalError
  deriving DecidableEq, Repr

namespace Lexed

/-- Puts a token in front. -/
def cons (token : Token) (lexed : Lexed) : Lexed :=
  { lexed with tokens := token :: lexed.tokens }

/-- Cuts the rest of a line into tokens, the rest beginning at the given place. -/
def scan (position : Position) (text : List Char) : Lexed :=
  match h : Lexeme.first? text with
  | some (lexeme, rest) =>
      have := Lexeme.first?_length_lt h
      (scan (position.advance lexeme.text.toList) rest).cons ⟨lexeme, position⟩
  | none => ⟨[], text.head?.map fun character ↦ ⟨position, character⟩⟩
  termination_by text.length

/-- Cuts a line into tokens. -/
def ofString (line : String) : Lexed :=
  scan .start line.toList

/-- The tokens that say something, provided that the whole line could be cut into tokens. -/
def significant (lexed : Lexed) : Except LexicalError (List Token) :=
  match lexed.error? with
  | some error => .error error
  | none => .ok (lexed.tokens.filter (·.lexeme.isSignificant))

end Lexed

end DiceArithmetic
