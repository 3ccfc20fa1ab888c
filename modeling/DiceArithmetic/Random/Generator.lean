import DiceArithmetic.Random.Source
import DiceArithmetic.Random.Twister

/-!
# Generators

The three ways in which draws come about: always the same integer, a script read from front to back,
or a seeded twister. Only the twister keeps to the range that is asked for.
-/

namespace DiceArithmetic

/-- The state of a generator: the integer it always gives; what is left of its script and how much
of it is spent; its twister. -/
inductive Generator where
  | fixed (value : Int)
  | scripted (remaining : List Int) (spent : Nat)
  | seeded (twister : Twister)

namespace Generator

/-- A generator that hands out these integers in turn. -/
def ofScript (values : List Int) : Generator :=
  .scripted values 0

/-- One draw. A script that is used up stays so. -/
def draw (low high : Int) : EStateM SourceError Generator Int
  | .fixed value => .ok value (.fixed value)
  | .scripted [] spent => .error (.exhausted spent) (.scripted [] spent)
  | .scripted (value :: remaining) spent => .ok value (.scripted remaining (spent + 1))
  | .seeded twister =>
      if high < low then .error .emptyRange (.seeded twister)
      else
        let (offset, twister) := (Twister.below (high - low + 1).toNat).run twister
        .ok (low + offset) (.seeded twister)

/-- The source that a generator is. -/
def source : Source Generator :=
  ⟨draw⟩

end Generator

end DiceArithmetic
