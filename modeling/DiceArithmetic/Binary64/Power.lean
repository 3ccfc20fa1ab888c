import DiceArithmetic.Binary64

/-!
# Powers in binary64

Integers are rounded to binary64, to the nearest value and of two equally near ones to the even one.
The power of two rounded integers is rounded the same way and then cut toward zero.
-/

namespace DiceArithmetic.Binary64

/-- The value nearest to a natural number among those that have at most `precision` binary digits
before trailing zeros; of two equally near ones, the one whose last such digit is zero. -/
def roundNat (n : Nat) : Nat :=
  let unit := 2 ^ (n.log2 + 1 - precision)
  let quotient := n / unit
  let remainder := n % unit
  let up := unit < 2 * remainder ∨ unit = 2 * remainder ∧ quotient % 2 = 1
  (if up then quotient + 1 else quotient) * unit

/-- The binary64 value nearest to an integer, itself an integer, unless it lies out of range. -/
def round? (n : Int) : Option Int :=
  let magnitude := roundNat n.natAbs
  if magnitude < limit then some (if n < 0 then -magnitude else magnitude) else none

/-- The power of two integers that are binary64 values, rounded and then cut toward zero; nothing if
it lies out of range, and nothing for zero raised to a negative number. The power of a base of at
least two in magnitude is out of range from the exponent 1024 on, and vanishes below the exponent
zero. -/
def powerOfRounded? (base exponent : Int) : Option Int :=
  if base = 0 then
    if exponent < 0 then none else some (if exponent = 0 then 1 else 0)
  else if base = 1 then some 1
  else if base = -1 then some (if exponent % 2 = 0 then 1 else -1)
  else if exponent < 0 then some 0
  else if 1024 ≤ exponent then none
  else round? (base ^ exponent.toNat)

/-- The power of two integers, each rounded to binary64 first. -/
def power? (base exponent : Int) : Option Int := do
  powerOfRounded? (← round? base) (← round? exponent)

end DiceArithmetic.Binary64
