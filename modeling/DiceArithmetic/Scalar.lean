import DiceArithmetic.Binary64.Shortest
import DiceArithmetic.Text.Quoted

/-!
# Scalars

What a caller may offer as the value of a variable. Only integers and floats with an integral value
are of use; the other kinds exist to be refused by name.
-/

namespace DiceArithmetic

/-- A value offered for a variable. -/
inductive Scalar where
  | integer (value : Int)
  | float (value : Binary64)
  | text (value : String)
  | boolean (value : Bool)
  | missing
  deriving DecidableEq, Repr

namespace Scalar

/-- How a message shows a scalar. -/
def literal : Scalar → String
  | .integer value => toString value
  | .float value => value.text
  | .text value => Text.quoted value
  | .boolean true => "True"
  | .boolean false => "False"
  | .missing => "None"

/-- The integer that a scalar stands for. A truth value stands for none. -/
def toInt? : Scalar → Option Int
  | .integer value => some value
  | .float value => value.toInt?
  | .text _ | .boolean _ | .missing => none

end Scalar

end DiceArithmetic
