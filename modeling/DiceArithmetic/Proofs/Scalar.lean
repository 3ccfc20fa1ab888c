import Mathlib.Data.Nat.Cast.Field
import DiceArithmetic.Proofs.Binary64.Rounding
import DiceArithmetic.Proofs.Variables

/-!
# Scalars as values

What a scalar is worth as a number, without a word on how a float is laid out: an integer is itself,
and a float is the rational that it stands for. `Scalar.toInt?_eq_some_iff` says that a scalar
stands for an integer just when that is its worth, and `Evaluator.exists_accept_iff` that every
float with an integral value is accepted, since none of them is too wide. A scalar that is not
accepted is refused with an error of its own, see `Evaluator.accept_eq_error_iff`.
-/

namespace DiceArithmetic

namespace Binary64

variable {value : Binary64} {n : Int}

/-- A significand times a power of two is a quotient of natural numbers. -/
theorem mul_zpow_eq_div (significand : Nat) (exponent : Int) :
    (significand * 2 ^ exponent : ℚ) =
      (significand * 2 ^ exponent.toNat : Nat) / (2 ^ (-exponent).toNat : Nat) := by
  have hexponent : exponent = (exponent.toNat : Int) - ((-exponent).toNat : Int) :=
    (Int.toNat_sub_toNat_neg exponent).symm
  have hpower : (2 : ℚ) ^ exponent = 2 ^ exponent.toNat / 2 ^ (-exponent).toNat := by
    conv_lhs => rw [hexponent]
    rw [zpow_sub₀ two_ne_zero, zpow_natCast, zpow_natCast]
  rw [hpower]
  push_cast
  exact (mul_div_assoc _ _ _).symm

theorem signed_natCast (negative : Bool) (magnitude : Nat) :
    signed negative magnitude = ((if negative then -magnitude else magnitude : Int) : ℚ) := by
  cases negative <;> simp [signed]

/-- A float stands for an integer just when it is a finite number of that value. -/
theorem toInt?_eq_some_iff : value.toInt? = some n ↔ value.toRat? = some (n : ℚ) := by
  unfold toInt? toRat?
  cases value.meaning with
  | notANumber | infinite => constructor <;> nofun
  | finite negative significand exponent =>
      have hunit : ((2 ^ (-exponent).toNat : Nat) : ℚ) ≠ 0 :=
        Nat.cast_ne_zero.2 (Nat.two_pow_pos _).ne'
      show (if _ then _ else _) = _ ↔ some (signed _ _) = _
      rw [mul_zpow_eq_div, Option.some.injEq]
      split
      next hdvd =>
          rw [← Nat.cast_div hdvd hunit, signed_natCast, Int.cast_inj]
          exact Option.some_inj
      next hdvd =>
          refine iff_of_false nofun fun hsigned ↦ hdvd ?_
          -- The magnitude of the integer is the quotient.
          have hquotient : (n.natAbs : ℚ) =
              (significand * 2 ^ exponent.toNat : Nat) / (2 ^ (-exponent).toNat : Nat) := by
            rw [Nat.cast_natAbs, Int.cast_abs, ← hsigned, abs_signed, abs_of_nonneg (by positivity)]
          rw [eq_div_iff hunit] at hquotient
          refine ⟨n.natAbs, Nat.cast_injective (R := ℚ) ?_⟩
          rw [← hquotient, Nat.cast_mul, mul_comm]

/-- The range of the format ends where a significand with the greatest exponent would. -/
theorem cast_limit : (limit : ℚ) = 2 ^ 53 * 2 ^ (971 : Int) := by
  have hexponent : 1024 = 53 + 971 := rfl
  rw [limit, Nat.cast_pow, Nat.cast_ofNat, hexponent, pow_add, zpow_ofNat]

/-- An integer that is a float is within the range of the format. -/
theorem natAbs_lt_of_toRat? (h : value.toRat? = some (n : ℚ)) : n.natAbs < limit := by
  obtain ⟨significand, exponent, -, hplace, hsignificand, hexponent⟩ := exists_meaning h
  have hnonneg : (0 : ℚ) ≤ significand * 2 ^ exponent := by positivity
  have hdigits : (significand : ℚ) < 2 ^ 53 := by exact_mod_cast hsignificand
  have hpower : (2 : ℚ) ^ exponent ≤ 2 ^ (971 : Int) := zpow_le_zpow_right₀ one_le_two hexponent
  have hsmall : (n.natAbs : ℚ) < limit := by
    rw [Nat.cast_natAbs, Int.cast_abs, hplace, abs_signed, abs_of_nonneg hnonneg, cast_limit]
    exact mul_lt_mul hdigits hpower (zpow_pos two_pos _) (by norm_num)
  exact Nat.cast_lt.1 hsmall

end Binary64

namespace Scalar

/-- The scalar is worth the integer: it is the integer itself, or a float of that value. -/
def IsWorth : Scalar → Int → Prop
  | .integer value, worth => value = worth
  | .float value, worth => value.toRat? = some (worth : ℚ)
  | .text _, _ | .boolean _, _ | .missing, _ => False

/-- The scalar can be bound to a name: it is a narrow integer, or a float with an integral value,
however large. -/
def IsBindable : Scalar → Prop
  | .integer value => IsNarrow value
  | .float value => ∃ worth : Int, value.toRat? = some (worth : ℚ)
  | .text _ | .boolean _ | .missing => False

/-- Why a scalar that cannot be bound to the name is refused: an integer is too wide, and anything
else is no integer. -/
def refusal (name : String) : Scalar → EvaluationError
  | .integer _ => .tooWide
  | scalar => .invalidVariable name scalar

/-- The scalars are the same, or an integer has become a float of the same value. -/
inductive BecomesFloat : Scalar → Scalar → Prop where
  | same (scalar : Scalar) : BecomesFloat scalar scalar
  | float (value : Int) (float : Binary64) (h : float.toRat? = some (value : ℚ)) :
      BecomesFloat (.integer value) (.float float)

variable {scalar other : Scalar} {worth : Int}

/-- A scalar stands for the integer that it is worth. -/
theorem toInt?_eq_some_iff : scalar.toInt? = some worth ↔ scalar.IsWorth worth := by
  cases scalar with
  | integer value => exact Option.some_inj
  | float value => exact Binary64.toInt?_eq_some_iff
  | text | boolean | missing => constructor <;> nofun

/-- A float is not too wide. -/
theorem isNarrow_of_toRat? {value : Binary64} (h : value.toRat? = some (worth : ℚ)) :
    IsNarrow worth := by
  have hbits : 1024 ≤ maxBits := by decide
  exact Nat.lt_of_lt_of_le (Binary64.natAbs_lt_of_toRat? h)
    (Nat.pow_le_pow_right Nat.zero_lt_two hbits)

/-- What can be bound is worth a narrow integer, and nothing else is. -/
theorem isBindable_iff : scalar.IsBindable ↔ ∃ worth, scalar.IsWorth worth ∧ IsNarrow worth := by
  cases scalar with
  | integer value =>
      constructor
      · intro h
        exact ⟨value, rfl, h⟩
      · rintro ⟨_, rfl, h⟩
        exact h
  | float value =>
      constructor
      · rintro ⟨worth, h⟩
        exact ⟨worth, h, isNarrow_of_toRat? h⟩
      · rintro ⟨worth, h, -⟩
        exact ⟨worth, h⟩
  | text | boolean | missing =>
      constructor
      · exact False.elim
      · rintro ⟨_, h, -⟩
        exact h

end Scalar

namespace Evaluator

variable {name : String} {scalar other : Scalar} {error : EvaluationError}

theorem exists_accept_iff : (∃ value, accept name scalar = .ok value) ↔ scalar.IsBindable := by
  simp only [accept_eq_ok_iff, Scalar.toInt?_eq_some_iff, Scalar.isBindable_iff]

/-- What cannot be bound is refused, each scalar with an error of its own. -/
theorem accept_of_not_isBindable (name : String) (h : ¬ scalar.IsBindable) :
    accept name scalar = .error (scalar.refusal name) := by
  cases scalar with
  | integer value => exact narrow_eq_error_iff.2 ⟨rfl, h⟩
  | float value =>
      have hnone : value.toInt? = none := by
        refine Option.eq_none_iff_forall_ne_some.2 fun worth hworth ↦ h ?_
        exact ⟨worth, Binary64.toInt?_eq_some_iff.1 hworth⟩
      simp only [accept, Scalar.toInt?, hnone, Scalar.refusal]
  | text | boolean | missing => rfl

theorem accept_eq_error_iff :
    accept name scalar = .error error ↔ ¬ scalar.IsBindable ∧ error = scalar.refusal name := by
  constructor
  · intro h
    have hrefused : ¬ scalar.IsBindable := by
      intro hbindable
      obtain ⟨value, hvalue⟩ : ∃ value, accept name scalar = .ok value :=
        exists_accept_iff.2 hbindable
      rw [h] at hvalue
      cases hvalue
    rw [accept_of_not_isBindable name hrefused] at h
    exact ⟨hrefused, (Except.error.inj h).symm⟩
  · rintro ⟨hrefused, rfl⟩
    exact accept_of_not_isBindable name hrefused

/-- A float is accepted like the integer that it has replaced. -/
theorem accept_of_becomesFloat (name : String) (h : scalar.BecomesFloat other) :
    accept name scalar = accept name other := by
  cases h with
  | same => rfl
  | float value float h =>
      simp only [accept, Scalar.toInt?, Binary64.toInt?_eq_some_iff.2 h]

end Evaluator

end DiceArithmetic
