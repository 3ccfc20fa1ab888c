/-!
# Lexemes

The smallest pieces of a line of dice arithmetic. `Lexeme.first?` takes the longest lexeme that a
text begins with, and `first?_eq_append` says that nothing is lost or changed on the way.
-/

namespace DiceArithmetic

/-- A piece of a line. A comment keeps the semicolon that opens it. -/
inductive Lexeme where
  | identifier (name : String)
  | number (digits : String)
  | punctuation (symbol : Char)
  | comment (text : String)
  | whitespace (text : String)
  deriving DecidableEq, Repr

namespace Lexeme

/-- The characters of the line that the lexeme stands for. -/
def text : Lexeme → String
  | .identifier name => name
  | .number digits => digits
  | .punctuation symbol => String.singleton symbol
  | .comment text => text
  | .whitespace text => text

/-- Whether the lexeme says anything: comments and whitespace do not. -/
def isSignificant : Lexeme → Bool
  | .identifier _ | .number _ | .punctuation _ => true
  | .comment _ | .whitespace _ => false

/-- The symbols that stand for themselves. The grave accent and the tilde are not among them, and
neither is the semicolon, which opens a comment. -/
def symbols : List Char :=
  "-[]!@#$%^&*()+_=\x7b\x7d\\|:\x22\x27<,>.?/".toList

/-- Whether a character belongs inside a comment. A comma ends a comment and is no part of it. -/
def isCommentBody (character : Char) : Bool :=
  character ≠ ','

/-- The longest lexeme that a text begins with, and the text behind it; nothing at the end of the
text and before a character that begins no lexeme. Letters, digits and blanks are the ASCII ones;
a comment may hold any character but a comma. -/
def first? : List Char → Option (Lexeme × List Char)
  | [] => none
  | head :: tail =>
      let run (belongs : Char → Bool) := String.ofList (head :: tail.takeWhile belongs)
      if head = ';' then some (.comment (run isCommentBody), tail.dropWhile isCommentBody)
      else if head.isAlpha then some (.identifier (run Char.isAlpha), tail.dropWhile Char.isAlpha)
      else if head.isDigit then some (.number (run Char.isDigit), tail.dropWhile Char.isDigit)
      else if head ∈ symbols then some (.punctuation head, tail)
      else if head.isWhitespace then
        some (.whitespace (run Char.isWhitespace), tail.dropWhile Char.isWhitespace)
      else none

/-- A text is its first lexeme followed by the text behind that lexeme. -/
theorem first?_eq_append {text rest : List Char} {lexeme : Lexeme}
    (h : first? text = some (lexeme, rest)) : text = lexeme.text.toList ++ rest := by
  cases text with
  | nil => simp [first?] at h
  | cons head tail =>
      grind [first?, Lexeme.text, String.toList_ofList, String.toList_singleton,
        List.takeWhile_append_dropWhile]

/-- A lexeme taken off a text has at least one character. -/
theorem first?_text_ne_nil {text rest : List Char} {lexeme : Lexeme}
    (h : first? text = some (lexeme, rest)) : lexeme.text.toList ≠ [] := by
  cases text with
  | nil => simp [first?] at h
  | cons head tail =>
      grind [first?, Lexeme.text, String.toList_ofList, String.toList_singleton]

/-- What is left behind the first lexeme is shorter than the text. -/
theorem first?_length_lt {text rest : List Char} {lexeme : Lexeme}
    (h : first? text = some (lexeme, rest)) : rest.length < text.length := by
  have positive := List.length_pos_iff.2 (first?_text_ne_nil h)
  rw [first?_eq_append h, List.length_append]
  omega

end Lexeme

end DiceArithmetic
