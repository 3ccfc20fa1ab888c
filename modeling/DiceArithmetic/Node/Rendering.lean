import DiceArithmetic.Node

/-!
# Writing a tree

A tree has one normal form on a line: a space on either side of every operator, none inside
parentheses, numbers in decimal.
-/

namespace DiceArithmetic.Node

/-- The normal form of a tree. -/
def render {tier : Tier} : Node tier → String
  | .number value => toString value
  | .named name => name
  | .parentheses inner => "(" ++ inner.render ++ ")"
  | .ofValue value => value.render
  | .power base exponent => base.render ++ " ^ " ++ exponent.render
  | .ofFactor factor => factor.render
  | .product left op right => left.render ++ " " ++ op.symbol ++ " " ++ right.render
  | .ofTerm term => term.render
  | .sum left op right => left.render ++ " " ++ op.symbol ++ " " ++ right.render

end DiceArithmetic.Node
