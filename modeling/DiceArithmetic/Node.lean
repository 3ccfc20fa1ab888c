import DiceArithmetic.Operator

/-!
# Expression trees

A tree knows at which of the four tiers of precedence each of its nodes stands. Chains of operators
lean to the left, the way they are evaluated.
-/

namespace DiceArithmetic

/-- The tiers of precedence, from the tightest to the loosest. -/
inductive Tier where
  | value
  | factor
  | term
  | expression
  deriving DecidableEq, Repr

/-- A tree whose root stands at the given tier: a value is a number, a variable or an expression in
parentheses; a factor is a value, possibly raised to another; a term is a chain of factors; an
expression is a chain of terms. A chain may hold any operator, also one that a line of text cannot
put there. -/
inductive Node : Tier → Type where
  | number (value : Int) : Node .value
  | named (name : String) : Node .value
  | parentheses (inner : Node .expression) : Node .value
  | ofValue (value : Node .value) : Node .factor
  | power (base exponent : Node .value) : Node .factor
  | ofFactor (factor : Node .factor) : Node .term
  | product (left : Node .term) (op : Operator) (right : Node .factor) : Node .term
  | ofTerm (term : Node .term) : Node .expression
  | sum (left : Node .expression) (op : Operator) (right : Node .term) : Node .expression
  deriving DecidableEq, Repr

/-- A number, a variable, or an expression in parentheses. -/
abbrev Value := Node .value

/-- A value, possibly raised to another. -/
abbrev Factor := Node .factor

/-- A chain of factors. -/
abbrev Term := Node .term

/-- A chain of terms. -/
abbrev Expression := Node .expression

end DiceArithmetic
