import DiceArithmetic.Instances

/-!
# Binary64 values

The 64-bit words of the IEEE 754 format binary64 and the numbers they stand for.
-/

namespace DiceArithmetic

/-- A binary64 value, given by its word. Two values are equal only if their words are, so the two
zeros differ, and so do two words that are no number. -/
structure Binary64 where
  word : UInt64
  deriving DecidableEq, Repr

namespace Binary64

/-- How many binary digits the significand of a normal number has. -/
def precision : Nat :=
  53

/-- The least power of two that is too large to be a value. -/
def limit : Nat :=
  2 ^ 1024

/-- What a word stands for. A finite number is `significand * 2 ^ exponent`, negated if so marked;
a zero keeps its mark. -/
inductive Meaning where
  | notANumber
  | infinite (negative : Bool)
  | finite (negative : Bool) (significand : Nat) (exponent : Int)
  deriving DecidableEq, Repr

/-- Whether the sign bit is set. -/
def isNegative (value : Binary64) : Bool :=
  2 ^ 63 ≤ value.word.toNat

/-- The eleven bits of the biased exponent. -/
def biasedExponent (value : Binary64) : Nat :=
  value.word.toNat / 2 ^ 52 % 2 ^ 11

/-- The fifty-two bits behind the binary point. -/
def fraction (value : Binary64) : Nat :=
  value.word.toNat % 2 ^ 52

/-- What the word stands for. -/
def meaning (value : Binary64) : Meaning :=
  if value.biasedExponent = 2047 then
    if value.fraction = 0 then .infinite value.isNegative else .notANumber
  else if value.biasedExponent = 0 then .finite value.isNegative value.fraction (-1074)
  else .finite value.isNegative (2 ^ 52 + value.fraction) (value.biasedExponent - 1075)

/-- The integer that the value is, if it is one. -/
def toInt? (value : Binary64) : Option Int :=
  match value.meaning with
  | .notANumber | .infinite _ => none
  | .finite negative significand exponent =>
      let scaled := significand * 2 ^ exponent.toNat
      let unit := 2 ^ (-exponent).toNat
      if unit ∣ scaled then
        let magnitude : Int := (scaled / unit : Nat)
        some (if negative then -magnitude else magnitude)
      else none

end Binary64

end DiceArithmetic
