import DiceArithmetic.Binary64.Power
import DiceArithmetic.Bindings
import DiceArithmetic.Step

/-!
# Evaluating a tree

An evaluator holds variables that are known to be integers of bounded width, and the limits on
rolls. It works on a tree from left to right and from the inside out; every result of an operator
must be of bounded width too. Numbers in the tree are taken as they are. `narrow`, `quotient` and
`power` give an error as it is; the step that they belong to raises it, and interrupts the evaluation
in another way if it cannot be told: `Step.ofExcept`.
-/

namespace DiceArithmetic

/-- An integer, provided that its magnitude has at most `maxBits` binary digits. -/
def narrow (value : Int) : Except EvaluationError Int :=
  if value.natAbs < 2 ^ maxBits then .ok value else .error .tooWide

/-- A quotient, cut toward zero. -/
def quotient (dividend divisor : Int) : Except EvaluationError Int :=
  if divisor = 0 then .error (.divisionByZero dividend) else .ok (dividend.tdiv divisor)

/-- A power in binary64, cut toward zero, provided that there is one and that it is narrow. -/
def power (base exponent : Int) : Except EvaluationError Int :=
  match Binary64.power? base exponent with
  | some value => narrow value
  | none => .error (.powerOutOfRange base exponent)

/-- What an evaluation consults besides the tree and the source. -/
structure Evaluator where
  bindings : Bindings Int
  limits : Limits := {}
  deriving DecidableEq, Repr

namespace Evaluator

/-- The integer that a variable is bound to when a scalar is offered for it. -/
def accept (name : String) (offered : Scalar) : Except EvaluationError Int :=
  match offered.toInt? with
  | some value => narrow value
  | none => .error (.invalidVariable name offered)

/-- An evaluator with variables bound to what is offered. The first scalar that is not accepted is
the error, whether or not its variable is ever used. -/
def prepare (offered : Bindings Scalar) (limits : Limits) : Except EvaluationError Evaluator :=
  match offered.traverse accept with
  | .ok bindings => .ok ⟨bindings, limits⟩
  | .error error => .error error

/-- An evaluator with the same variables, offered anew, under other limits. -/
def withLimits (evaluator : Evaluator) (limits : Limits) : Except EvaluationError Evaluator :=
  prepare (evaluator.bindings.map .integer) limits

/-- The value of a variable. -/
def lookUp (evaluator : Evaluator) (name : String) : Except EvaluationError Int :=
  match evaluator.bindings.get? name with
  | some value => .ok value
  | none => .error (.undefinedVariable name)

variable {σ : Type}

/-- The result of an operator, whatever its width. -/
def combine (evaluator : Evaluator) (source : Source σ) (op : Operator) (left right : Int) :
    Step σ Int :=
  match op with
  | .add => pure (left + right)
  | .subtract => pure (left - right)
  | .multiply => pure (left * right)
  | .divide => .ofExcept (quotient left right)
  | .roll => .roll source evaluator.limits left right

/-- The result of an operator, provided that it is narrow. -/
def apply (evaluator : Evaluator) (source : Source σ) (op : Operator) (left right : Int) :
    Step σ Int := do
  .ofExcept (narrow (← evaluator.combine source op left right))

/-- The value of a tree. -/
def evaluate (evaluator : Evaluator) (source : Source σ) {tier : Tier} : Node tier → Step σ Int
  | .number value => pure value
  | .named name => .ofExcept (evaluator.lookUp name)
  | .parentheses inner => evaluator.evaluate source inner
  | .ofValue value => evaluator.evaluate source value
  | .power base exponent => do
      let base ← evaluator.evaluate source base
      let exponent ← evaluator.evaluate source exponent
      .ofExcept (power base exponent)
  | .ofFactor factor => evaluator.evaluate source factor
  | .product left op right => do
      let left ← evaluator.evaluate source left
      let right ← evaluator.evaluate source right
      evaluator.apply source op left right
  | .ofTerm term => evaluator.evaluate source term
  | .sum left op right => do
      let left ← evaluator.evaluate source left
      let right ← evaluator.evaluate source right
      evaluator.apply source op left right

/-- Evaluates a tree on its own, from a state of the source. -/
def run (evaluator : Evaluator) (source : Source σ) (expression : Expression) (state : σ) :
    EStateM.Result Interruption (Progress σ) Int :=
  evaluator.evaluate source expression { source := state }

end Evaluator

end DiceArithmetic
