import DiceArithmetic.EvaluationError

/-!
# Rolls

What a roll of dice is, which rolls are allowed, and how rolling is traced.
-/

namespace DiceArithmetic

/-- A completed roll: what was asked for, what each die showed, and their sum. -/
structure DiceRoll where
  count : Int
  sides : Int
  faces : List Int
  subtotal : Int
  deriving DecidableEq, Repr

/-- Bounds on a single roll; an absent one does not bound. -/
structure Limits where
  maxDice : Option Int := none
  maxSides : Option Int := none
  deriving DecidableEq, Repr

namespace Limits

/-- The bound, if there is one and the integer exceeds it. -/
def exceeded? (bound : Option Int) (value : Int) : Option Int :=
  bound.filter (· < value)

/-- The first objection to a roll: a negative count, too few sides, too many dice, too many
sides. -/
def objection? (limits : Limits) (count sides : Int) : Option DiceFault :=
  if count < 0 then some (.negativeCount count)
  else if sides < 1 then some (.noSides sides)
  else
    match exceeded? limits.maxDice count, exceeded? limits.maxSides sides with
    | some limit, _ => some (.tooManyDice count limit)
    | none, some limit => some (.tooManySides sides limit)
    | none, none => none

end Limits

/-- A line of the trace: a roll begins, or a die shows a face. -/
inductive TraceEvent where
  | rolling (count sides : Int)
  | face (sides value : Int)
  deriving DecidableEq, Repr

/-- A line of the trace as it is printed. The faces of a roll are indented. -/
def TraceEvent.line : TraceEvent → String
  | .rolling count sides => s!"Rolling {count}d{sides}"
  | .face sides value => s!"  d{sides}: {value}"

end DiceArithmetic
