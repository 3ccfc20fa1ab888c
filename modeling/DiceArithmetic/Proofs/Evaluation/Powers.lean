import DiceArithmetic.Proofs.Binary64.Power
import DiceArithmetic.Proofs.Evaluation.Telling
import DiceArithmetic.Random.Generator

/-!
# Powers in a tree

A power of two operands is what binary64 has for it, see `power_eq_ok_iff` and `power_eq_error_iff`.
That there is none can be told unless an operand is too long to be written; such an operand is
always out of range: `overflows_of_not_digitCount_le`.
-/

namespace DiceArithmetic

open Binary64 Text

/-- An integer that is too long to be written is out of range. -/
theorem overflows_of_not_digitCount_le {n : Int} (h : ¬ digitCount n ≤ maxNumeralDigits) :
    Overflows n := by
  rw [digitCount_le_iff (by decide), not_lt] at h
  rw [overflows_intCast]
  calc 2 ^ 1024 - 2 ^ 970 ≤ 2 ^ 1024 := Nat.sub_le _ _
    _ ≤ 10 ^ 1024 := Nat.pow_le_pow_left (by decide) 1024
    _ ≤ 10 ^ maxNumeralDigits := Nat.pow_le_pow_right (by decide) (by decide)
    _ ≤ n.natAbs := h

namespace Evaluator

variable {σ : Type} {evaluator : Evaluator} {source : Source σ} {before middle ready : Progress σ}
  {first second : Value} {base exponent : Int}

/-- Once its operands are known, a power changes nothing more. -/
theorem evaluate_power_of_operands
    (hbase : evaluator.evaluate source first before = .ok base middle)
    (hexponent : evaluator.evaluate source second middle = .ok exponent ready) :
    evaluator.evaluate source (.power first second) before =
      Step.ofExcept (DiceArithmetic.power base exponent) ready := by
  simp only [evaluate, Step.bind_apply, hbase, hexponent]

/-- The power of two operands is the correctly rounded power of their roundings, cut toward zero.
There is none just where one of these is out of range, or zero is raised to a negative number. This
is always the same error, an overflow, and it is told unless one of the operands is too long to be
written. The check of the width never objects. Integers of up to 53 binary digits are taken as they
are: their power is exact if it is another, and else is off by less than one part in `2 ^ 53`. A
negative exponent leaves nothing of a great base, and the sign of a power of minus one is that of
its rounded exponent. -/
theorem evaluate_power (hbase : evaluator.evaluate source first before = .ok base middle)
    (hexponent : evaluator.evaluate source second middle = .ok exponent ready) :
    let outcome := evaluator.evaluate source (.power first second) before
    let error : EvaluationError := .powerOutOfRange base exponent
    ((∃ interruption after, outcome = .error interruption after) ↔ HasNoPower base exponent) ∧
      (∀ interruption after, outcome = .error interruption after →
        after = ready ∧ error.fault = .overflow ∧
          ((digitCount base ≤ maxNumeralDigits ∧ digitCount exponent ≤ maxNumeralDigits) →
            interruption = .evaluation error) ∧
          (¬ (digitCount base ≤ maxNumeralDigits ∧ digitCount exponent ≤ maxNumeralDigits) →
            interruption = .untold error)) ∧
      (∀ value after, outcome = .ok value after →
        after = ready ∧ value.natAbs < 2 ^ 1024 ∧ IsNarrow value ∧
          ∃ roundedBase roundedExponent,
            round? base = some roundedBase ∧ RoundsTo base roundedBase ∧
              round? exponent = some roundedExponent ∧ RoundsTo exponent roundedExponent ∧
              (∃ place, RoundsTo ((roundedBase : ℚ) ^ roundedExponent) place ∧
                value = truncated place) ∧
              (2 ≤ base.natAbs → exponent < 0 → value = 0) ∧
              (base.natAbs = 1 →
                value.natAbs = 1 ∧ (value < 0 ↔ base = -1 ∧ roundedExponent % 2 = 1))) ∧
      (base.natAbs ≤ 2 ^ 53 → 0 ≤ exponent → exponent ≤ 2 ^ 53 →
        ((base ^ exponent.toNat).natAbs ≤ 2 ^ 53 →
            outcome = .ok (base ^ exponent.toNat) ready) ∧
          (2 ^ 53 < (base ^ exponent.toNat).natAbs →
            ∀ value after, outcome = .ok value after →
              2 ^ 53 * |value - base ^ exponent.toNat| < |base ^ exponent.toNat|)) := by
  rw [evaluate_power_of_operands hbase hexponent]
  intro outcome error
  refine ⟨?_, fun interruption after hstop ↦ ?_, fun value after hvalue ↦ ?_,
    fun hsmall hlow hhigh ↦ ⟨fun hexact ↦ ?_, fun hmore value after hvalue ↦ ?_⟩⟩
  · simp [outcome, Step.ofExcept_eq_error_iff, power_eq_error_iff]
  · obtain ⟨_, hpower, hraised, rfl⟩ := Step.ofExcept_eq_error_iff.1 hstop
    obtain ⟨-, rfl⟩ := power_eq_error_iff.1 hpower
    refine ⟨rfl, rfl, fun hshort ↦ ?_, fun hlong ↦ ?_⟩
    · rw [← hraised, EvaluationError.raised_of_isTellable]
      exact isTellable_powerOutOfRange_iff.2 hshort
    · rw [← hraised, EvaluationError.raised_of_not_isTellable]
      exact fun htellable ↦ hlong (isTellable_powerOutOfRange_iff.1 htellable)
  · obtain ⟨hpower, rfl⟩ := Step.ofExcept_eq_ok_iff.1 hvalue
    rw [power_eq_ok_iff] at hpower
    exact ⟨rfl, natAbs_lt_of_power? hpower, isNarrow_of_power? hpower,
      exists_rounded_of_power? hpower⟩
  · rw [Step.ofExcept_eq_ok_iff, power_eq_ok_iff, power?_eq_round? hsmall hlow hhigh,
      round?_of_natAbs_le hexact]
    exact ⟨rfl, rfl⟩
  · obtain ⟨hpower, rfl⟩ := Step.ofExcept_eq_ok_iff.1 hvalue
    rw [power_eq_ok_iff, power?_eq_round? hsmall hlow hhigh] at hpower
    exact distance_round?_lt hpower (by omega)

/-- The greatest base that is taken as it is, a power that is rounded to another number, a negative
one, and zero raised to a negative number. -/
theorem evaluate_power_samples :
    let evaluator : Evaluator := ⟨.empty, {}⟩
    let start : Progress Generator := { source := .fixed 1 }
    let raise (base exponent : Int) :=
      evaluator.evaluate Generator.source (.power (.number base) (.number exponent)) start
    raise (2 ^ 53) 1 = .ok (2 ^ 53) start ∧
      (raise 3 34 = .ok (3 ^ 34 - 1) start ∧
        2 ^ 53 * |(3 ^ 34 - 1 : Int) - 3 ^ 34| < |3 ^ 34|) ∧
      (raise (-1) (-5) = .ok (-1) start ∧ IsNarrow (-1) ∧ ¬ HasNoPower (-1) (-5)) ∧
      raise 0 (-1) = .error (.evaluation (.powerOutOfRange 0 (-1))) start := by
  intro evaluator start raise
  have hnumber (value : Int) :
      evaluator.evaluate Generator.source (.number value) start = .ok value start := rfl
  have hspec (base exponent : Int) := evaluate_power (hnumber base) (hnumber exponent)
  have hraise {base exponent value : Int} (h : DiceArithmetic.power base exponent = .ok value) :
      raise base exponent = .ok value start :=
    (evaluate_power_of_operands rfl rfl).trans (Step.ofExcept_eq_ok_iff.2 ⟨h, rfl⟩)
  have hrounded : raise 3 34 = .ok (3 ^ 34 - 1) start := hraise (by decide +kernel)
  have hnegative : raise (-1) (-5) = .ok (-1) start := hraise (by decide +kernel)
  refine ⟨((hspec (2 ^ 53) 1).2.2.2 (by decide) (by decide) (by decide)).1 (by decide),
    ⟨hrounded, ?_⟩, ⟨hnegative, ((hspec (-1) (-5)).2.2.1 _ _ hnegative).2.2.1, ?_⟩, ?_⟩
  · exact ((hspec 3 34).2.2.2 (by decide) (by decide) (by decide)).2 (by decide) _ _ hrounded
  · intro hnone
    obtain ⟨interruption, after, hstop⟩ := (hspec (-1) (-5)).1.2 hnone
    cases hnegative.symm.trans hstop
  · obtain ⟨interruption, after, hstop⟩ := (hspec 0 (-1)).1.2 (.inr (.inr (.inl ⟨rfl, by decide⟩)))
    obtain ⟨rfl, -, hshort, -⟩ := (hspec 0 (-1)).2.1 _ _ hstop
    rw [← hshort ⟨by decide, by decide⟩]
    exact hstop

/-- An integer that is too long to be written has no power, and that cannot be told. -/
theorem evaluate_power_long :
    let evaluator : Evaluator := ⟨.empty, {}⟩
    let start : Progress Generator := { source := .fixed 1 }
    let long : Int := 10 ^ maxNumeralDigits
    HasNoPower long 1 ∧
      evaluator.evaluate Generator.source (.power (.number long) (.number 1)) start =
        .error (.untold (.powerOutOfRange long 1)) start := by
  intro evaluator start long
  have hlong : ¬ digitCount long ≤ maxNumeralDigits := not_digitCount_pow_le
  -- From here on nothing may compute the integer.
  clear_value long
  have hnone : HasNoPower long 1 := .inl (overflows_of_not_digitCount_le hlong)
  have hpower : DiceArithmetic.power long 1 = .error (.powerOutOfRange long 1) :=
    power_eq_error_iff.2 ⟨hnone, rfl⟩
  refine ⟨hnone, ?_⟩
  rw [evaluate_power_of_operands rfl rfl, hpower, Step.ofExcept_error_apply,
    EvaluationError.raised_of_not_isTellable]
  exact fun htellable ↦ hlong (isTellable_powerOutOfRange_iff.1 htellable).1

end Evaluator

end DiceArithmetic
