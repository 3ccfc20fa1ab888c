import DiceArithmetic.Lexeme
import DiceArithmetic.Text.Quoted

/-!
# Operators

The five operators that join two operands. Raising to a power is not among them: it binds its two
values directly and does not chain.
-/

namespace DiceArithmetic

/-- An operator between two operands. -/
inductive Operator where
  | add
  | subtract
  | multiply
  | divide
  | roll
  deriving DecidableEq, Repr

namespace Operator

/-- How the operator is written. -/
def symbol : Operator → String
  | .add => "+"
  | .subtract => "-"
  | .multiply => "*"
  | .divide => "/"
  | .roll => "d"

/-- What the operator is called. -/
def name : Operator → String
  | .add => "ADD"
  | .subtract => "SUBTRACT"
  | .multiply => "MULTIPLY"
  | .divide => "DIVIDE"
  | .roll => "DICE_ROLL"

/-- The operator that is written this way. -/
def ofSymbol? : String → Option Operator
  | "+" => some .add
  | "-" => some .subtract
  | "*" => some .multiply
  | "/" => some .divide
  | "d" => some .roll
  | _ => none

theorem ofSymbol?_symbol (op : Operator) : ofSymbol? op.symbol = some op := by
  cases op <;> rfl

/-- The complaint about a text that is no operator. -/
def unknownMessage (symbol : String) : String :=
  Text.quoted symbol ++ " is not a valid Operator"

/-- Whether the operator joins terms. A roll does, so it binds as loosely as a sum. -/
def isAdditive : Operator → Bool
  | .add | .subtract | .roll => true
  | .multiply | .divide => false

/-- Whether the operator joins factors. -/
def isMultiplicative : Operator → Bool
  | .multiply | .divide => true
  | .add | .subtract | .roll => false

/-- The operator that a lexeme can be read as. The letter that stands for a roll is an identifier
like any other, so a reader has to know from its place which of the two it is. -/
def ofLexeme? : Lexeme → Option Operator
  | .identifier name => ofSymbol? name
  | .punctuation symbol => ofSymbol? (String.singleton symbol)
  | .number _ | .comment _ | .whitespace _ => none

/-- The operator joining terms that a lexeme can be read as. -/
def additive? (lexeme : Lexeme) : Option Operator :=
  (ofLexeme? lexeme).filter isAdditive

/-- The operator joining factors that a lexeme can be read as. -/
def multiplicative? (lexeme : Lexeme) : Option Operator :=
  (ofLexeme? lexeme).filter isMultiplicative

end Operator

end DiceArithmetic
