import DiceArithmetic.Instances
import DiceArithmetic.Text.Blank

/-!
# Numerals

How an integer may be written. A canonical numeral is made of digits, and begins with a zero only if
it is that zero alone. A setting may also have blanks at either end, a sign, zeros in front,
underscores between digits, and a point with zeros behind it; `canonical?` takes away all of these
but blanks and sign.
-/

namespace DiceArithmetic.Text

/-- The most digits that a canonical numeral may have, to be read or to be written. -/
def maxNumeralDigits : Nat :=
  4300

/-- How many decimal digits the magnitude of an integer has. -/
def digitCount (value : Int) : Nat :=
  (Nat.toDigits 10 value.natAbs).length

theorem digitCount_le_iff {value : Int} {count : Nat} (hcount : 0 < count) :
    digitCount value ≤ count ↔ value.natAbs < 10 ^ count :=
  Nat.length_toDigits_le_iff (by decide) hcount

/-- A canonical numeral consists of digits. The first is no zero, unless it is the only one. -/
def IsCanonical (numeral : List Char) : Prop :=
  numeral ≠ [] ∧ (∀ character ∈ numeral, character.isDigit) ∧
    (numeral.head? = some '0' → numeral = ['0'])

instance : DecidablePred IsCanonical :=
  fun _ ↦ inferInstanceAs (Decidable (_ ∧ _))

/-- The value of a canonical numeral that is not too long. -/
def natural? (numeral : List Char) : Option Nat :=
  if IsCanonical numeral ∧ numeral.length ≤ maxNumeralDigits then
    some (Nat.ofDigitChars 10 numeral 0)
  else none

/-- The value of a numeral that may have a minus sign. -/
def signed? : (numeral : List Char) → Option Int
  | '-' :: numeral => (natural? numeral).map fun (value : Nat) ↦ -(value : Int)
  | numeral => (natural? numeral).map Int.ofNat

/-- Whether a character may stand among the zeros in front of a numeral. -/
def isPadding (character : Char) : Bool :=
  character = '0' ∨ character = '_'

/-- A numeral without the zeros in front of it and the underscores among them. If nothing comes
behind them, or a point does, the last of them stays. -/
def unpadded (numeral : List Char) : List Char :=
  let padding := numeral.takeWhile isPadding
  let digits := numeral.dropWhile isPadding
  if numeral.head? ≠ some '0' then numeral
  else if digits = [] ∨ digits.head? = some '.' then numeral.drop (padding.length - 1)
  else digits

/-- A numeral without a point and zeros, one at least, at its end. -/
def whole (numeral : List Char) : List Char :=
  match numeral.dropWhile (· ≠ '.') with
  | '.' :: zeros =>
      if zeros ≠ [] ∧ zeros.all (· = '0') then numeral.takeWhile (· ≠ '.') else numeral
  | _ => numeral

/-- A numeral without its underscores, each of which has to stand between two other characters. -/
def ungrouped? (numeral : List Char) : Option (List Char) :=
  let groups := numeral.splitOn '_'
  if [] ∈ groups then none else some groups.flatten

/-- The canonical form of a numeral. What is no numeral has a form that is not canonical, if it has
one at all. -/
def canonical? (numeral : List Char) : Option (List Char) :=
  ungrouped? (whole (unpadded numeral))

/-- The integer that a text stands for. A sign comes first; where it is no minus sign, that may come
behind the zeros in front. -/
def integer? (text : String) : Option Int :=
  match trimmed text.toList with
  | '-' :: numeral => ((canonical? numeral).bind natural?).map fun (value : Nat) ↦ -(value : Int)
  | '+' :: '-' :: _ => none
  | '+' :: numeral => (canonical? numeral).bind signed?
  | numeral => (canonical? numeral).bind signed?

/-- The digits of a number are a canonical numeral. -/
theorem isCanonical_toDigits (value : Nat) : IsCanonical (Nat.toDigits 10 value) := by
  refine ⟨Nat.toDigits_ne_nil, fun _ h ↦ Nat.isDigit_of_mem_toDigits (by simp) (by simp) h, ?_⟩
  induction value using Nat.strongRecOn with
  | ind value ih =>
      by_cases small : value < 10
      · simp [Nat.toDigits_of_lt_base small]
      · rw [Nat.toDigits_of_base_le (by simp) (by omega), List.head?_append,
          List.head?_eq_some_head Nat.toDigits_ne_nil, Option.some_or,
          ← List.head?_eq_some_head Nat.toDigits_ne_nil]
        intro first
        have earlier := ih (value / 10) (by omega) first
        have zero := Nat.ofDigitChars_ten_toDigits (n := value / 10)
        rw [earlier] at zero
        simp [Nat.ofDigitChars] at zero
        omega

end DiceArithmetic.Text
