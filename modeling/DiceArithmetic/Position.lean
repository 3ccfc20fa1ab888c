/-!
# Positions in a text

A position counts the characters before it and names its line and column. The tokenizer moves a
position forward over what it has read; `Position.after` counts the same thing from the text as a
whole, and `advance_start` says that the two agree.
-/

namespace DiceArithmetic

/-- A place in a text: the number of characters before it, and its line and column, both counted
from one. -/
structure Position where
  offset : Nat
  line : Nat
  column : Nat
  deriving DecidableEq, Repr

namespace Position

/-- The place before the first character of a text. -/
def start : Position :=
  ⟨0, 1, 1⟩

/-- The place behind one more character. Only a line feed begins a new line. -/
def next (position : Position) (character : Char) : Position :=
  if character = '\n' then ⟨position.offset + 1, position.line + 1, 1⟩
  else ⟨position.offset + 1, position.line, position.column + 1⟩

/-- The place behind these further characters. -/
def advance (position : Position) (characters : List Char) : Position :=
  characters.foldl next position

/-- The place at the end of a text: one line more than it has line feeds, and one column more than
there are characters behind the last of them. -/
def after (text : List Char) : Position :=
  ⟨text.length, text.count '\n' + 1, (text.reverse.takeWhile (· ≠ '\n')).length + 1⟩

@[simp] theorem advance_nil (position : Position) : position.advance [] = position :=
  rfl

theorem advance_append (position : Position) (first second : List Char) :
    position.advance (first ++ second) = (position.advance first).advance second :=
  List.foldl_append

/-- Moving forward over a text from its start leads to the end of the text. -/
theorem advance_start (text : List Char) : start.advance text = after text := by
  rw [← text.reverse_reverse]
  induction text.reverse with
  | nil => rfl
  | cons character earlier ih =>
      rw [List.reverse_cons, advance_append, ih]
      by_cases h : character = '\n' <;> simp [advance, after, next, h]

end Position

end DiceArithmetic
