import DiceArithmetic.Report
import DiceArithmetic.Scalar
import DiceArithmetic.Text.Numeral

/-!
# Errors of an evaluation

Each error holds what went wrong; its report says it in words. The words may hold integers, and an
error can be told only if all of these can be written.
-/

namespace DiceArithmetic

/-- How many binary digits the magnitude of a result may have. -/
def maxBits : Nat :=
  9900

/-- What is wrong with a roll that is asked for. -/
inductive DiceFault where
  | negativeCount (count : Int)
  | noSides (sides : Int)
  | tooManyDice (count limit : Int)
  | tooManySides (sides limit : Int)
  deriving DecidableEq, Repr

/-- The fault in words. -/
def DiceFault.detail : DiceFault → String
  | .negativeCount count => s!"dice count must not be negative, got {count}"
  | .noSides sides => s!"dice need at least one side, got {sides}"
  | .tooManyDice count limit => s!"too many dice: {count} (max {limit})"
  | .tooManySides sides limit => s!"too many sides: {sides} (max {limit})"

/-- The integers that the fault is told with. -/
def DiceFault.integers : DiceFault → List Int
  | .negativeCount count => [count]
  | .noSides sides => [sides]
  | .tooManyDice count limit => [count, limit]
  | .tooManySides sides limit => [sides, limit]

/-- Why an evaluation has no result: a name is not bound, an integer is divided by zero, a roll is
impossible or not allowed, an integer has too many binary digits, a power has no binary64 value, or
a variable was offered something other than an integer. -/
inductive EvaluationError where
  | undefinedVariable (name : String)
  | divisionByZero (dividend : Int)
  | invalidDice (fault : DiceFault)
  | tooWide
  | powerOutOfRange (base exponent : Int)
  | invalidVariable (name : String) (offered : Scalar)
  deriving DecidableEq, Repr

namespace EvaluationError

/-- The kind of an error. A wide integer and a power out of range are of one kind. -/
def fault : EvaluationError → EvaluationFault
  | .undefinedVariable _ => .undefinedVariable
  | .divisionByZero _ => .divisionByZero
  | .invalidDice _ => .invalidDice
  | .tooWide | .powerOutOfRange .. => .overflow
  | .invalidVariable .. => .invalidVariable

/-- The name that an error concerns. -/
def name? : EvaluationError → Option String
  | .undefinedVariable name | .invalidVariable name _ => some name
  | .divisionByZero _ | .invalidDice _ | .tooWide | .powerOutOfRange .. => none

/-- The integers that the error is told with: the operands of an operation, what a roll was asked
for, a bound. -/
def integers : EvaluationError → List Int
  | .divisionByZero dividend => [dividend, 0]
  | .invalidDice fault => fault.integers
  | .tooWide => [maxBits]
  | .powerOutOfRange base exponent => [base, exponent]
  | .undefinedVariable _ | .invalidVariable .. => []

/-- None of the integers that the error is told with is too long to be written. -/
def IsTellable (error : EvaluationError) : Prop :=
  ∀ value ∈ error.integers, Text.digitCount value ≤ Text.maxNumeralDigits

instance : DecidablePred IsTellable :=
  fun error ↦ List.decidableBAll _ error.integers

theorem isTellable_tooWide : IsTellable .tooWide := by
  decide

/-- What a report adds about an error that can be told. -/
def detail? : EvaluationError → Option String
  | .undefinedVariable _ => none
  | .divisionByZero dividend => some s!"{dividend} / 0"
  | .invalidDice fault => some fault.detail
  | .tooWide => some s!"more than {maxBits} bits"
  | .powerOutOfRange base exponent => some s!"{base} ^ {exponent}"
  | .invalidVariable _ offered => some ("got " ++ offered.literal)

/-- The report on an error. -/
def report (error : EvaluationError) : Report :=
  .evaluation error.fault error.name? error.detail?

end EvaluationError

end DiceArithmetic
