import DiceArithmetic.Proofs.Binary64.Rounding
import DiceArithmetic.Proofs.Evaluation.Width

/-!
# Powers of rounded integers

A power is correctly rounded and cut toward zero: `powerOfRounded?_roundsTo`. It has no value just
where the exact power of the two rounded integers leaves the range, or where zero is raised to a
negative number: `powerOfRounded?_eq_none_iff`. Both come from `powerOfRounded?_eq_round?`, as a
power of two integers is an integer itself, or else it is no more than a half. `power_eq_ok_iff` and
`power_eq_error_iff` say what this means for two integers as they are.
-/

namespace DiceArithmetic

namespace Binary64

section

variable {base exponent value : Int}

/-- A great base in the denominator leaves no more than a half. -/
theorem abs_zpow_le_half (hbase : 2 ≤ base.natAbs) (hexponent : exponent < 0) :
    |(base : ℚ) ^ exponent| ≤ 2⁻¹ := by
  have htwo : (2 : ℚ) ≤ |(base : ℚ)| := by
    rw [← Int.cast_abs, Int.abs_eq_natAbs]
    exact_mod_cast hbase
  calc |(base : ℚ) ^ exponent| = |(base : ℚ)| ^ exponent := abs_zpow _ _
    _ ≤ |(base : ℚ)| ^ (-1 : Int) :=
        zpow_le_zpow_right₀ (le_trans one_le_two htwo) (by omega)
    _ = |(base : ℚ)|⁻¹ := zpow_neg_one _
    _ ≤ 2⁻¹ := inv_anti₀ two_pos htwo

/-- A power of a great base leaves the range from the exponent 1024 on. -/
theorem round?_pow_eq_none {exponent : Nat} (hbase : 2 ≤ base.natAbs) (hexponent : 1024 ≤ exponent) :
    round? (base ^ exponent) = none := by
  rw [round?_eq_none_iff, overflows_intCast, Int.natAbs_pow]
  refine (Nat.sub_le _ _).trans ((Nat.pow_le_pow_right two_pos hexponent).trans ?_)
  exact Nat.pow_le_pow_left hbase exponent

/-- A power of minus one is one or minus one, as its exponent is even or odd. -/
theorem neg_one_zpow_eq (exponent : Int) :
    ((-1 : Int) : ℚ) ^ exponent = (if exponent % 2 = 0 then 1 else -1 : Int) := by
  rw [Int.cast_neg, Int.cast_one]
  split
  next heven => rw [(Int.even_iff.2 heven).neg_one_zpow, Int.cast_one]
  next hodd =>
      rw [(Int.odd_iff.2 (Int.emod_two_ne_zero.1 hodd)).neg_one_zpow, Int.cast_neg, Int.cast_one]

/-- A power of integers is not defined, or it is an integer, or it is no more than a half. -/
theorem power_cases (base exponent : Int) :
    base = 0 ∧ exponent < 0 ∨
      (base ≠ 0 ∨ 0 ≤ exponent) ∧ (∃ exact : Int, (base : ℚ) ^ exponent = exact) ∨
      2 ≤ base.natAbs ∧ exponent < 0 := by
  rcases lt_or_ge exponent 0 with hnegative | hnatural
  · by_cases hzero : base = 0
    · exact .inl ⟨hzero, hnegative⟩
    · by_cases hunit : base.natAbs = 1
      · refine .inr (.inl ⟨.inl hzero, ?_⟩)
        obtain rfl | rfl : base = 1 ∨ base = -1 := by omega
        · exact ⟨1, by rw [Int.cast_one, one_zpow]⟩
        · exact ⟨_, neg_one_zpow_eq exponent⟩
      · exact .inr (.inr ⟨by omega, hnegative⟩)
  · refine .inr (.inl ⟨.inr hnatural, base ^ exponent.toNat, ?_⟩)
    rw [Int.cast_pow, ← zpow_natCast, Int.toNat_of_nonneg hnatural]

/-- A power that is an integer is rounded like that integer. -/
theorem powerOfRounded?_eq_round? {exact : Int} (hdomain : base ≠ 0 ∨ 0 ≤ exponent)
    (hexact : (base : ℚ) ^ exponent = exact) : powerOfRounded? base exponent = round? exact := by
  have hsmall {result : Int} (hvalue : (base : ℚ) ^ exponent = result)
      (hbound : result.natAbs ≤ 2 ^ 53) : some result = round? exact := by
    have hsame : exact = result := mod_cast hexact.symm.trans hvalue
    rw [hsame, round?_of_natAbs_le hbound]
  unfold powerOfRounded?
  split
  next hzero =>
      have hnatural : 0 ≤ exponent := hdomain.resolve_left (not_not.2 hzero)
      rw [if_neg hnatural.not_gt]
      refine hsmall ?_ (by split <;> decide)
      rw [hzero, Int.cast_zero, zero_zpow_eq]
      push_cast
      rfl
  next hzero =>
  split
  next hone => exact hsmall (by rw [hone, Int.cast_one, one_zpow]) (by decide)
  next hone =>
  split
  next hminus =>
      exact hsmall (by rw [hminus, neg_one_zpow_eq]) (by split <;> decide)
  next hminus =>
  have hbase : 2 ≤ base.natAbs := by omega
  split
  next hnegative =>
      -- An integer that is no more than a half is zero.
      have hhalf : ((|exact| : Int) : ℚ) ≤ 2⁻¹ := by
        rw [Int.cast_abs, ← hexact]
        exact abs_zpow_le_half hbase hnegative
      have hone : |exact| < 1 := by
        rw [← Int.cast_lt (R := ℚ), Int.cast_one]
        exact lt_of_le_of_lt hhalf (by norm_num)
      exact hsmall (by rw [hexact, Int.abs_lt_one_iff.1 hone]) (by decide)
  next hnatural =>
      have hsame : exact = base ^ exponent.toNat := by
        have hcast : ((base ^ exponent.toNat : Int) : ℚ) = exact := by
          rw [← hexact, Int.cast_pow, ← zpow_natCast, Int.toNat_of_nonneg (by omega)]
        exact_mod_cast hcast.symm
      rw [hsame]
      split
      next hgreat => exact (round?_pow_eq_none hbase (by omega)).symm
      next => rfl

/-- A great base in the denominator leaves nothing. -/
theorem powerOfRounded?_eq_zero (hbase : 2 ≤ base.natAbs) (hexponent : exponent < 0) :
    powerOfRounded? base exponent = some 0 := by
  rw [powerOfRounded?, if_neg (by omega), if_neg (by omega), if_neg (by omega), if_pos hexponent]

/-- A number that is no more than one stays within the range. -/
theorem not_overflows_of_abs_le_one {number : ℚ} (h : |number| ≤ 1) : ¬ Overflows number := by
  have hone : ¬ Overflows (1 : Int) := by
    rw [overflows_intCast]
    decide +kernel
  intro hmore
  exact hone (le_trans hmore (by simpa using h))

/-- There is no value where zero is raised to a negative number, or the exact power leaves the
range. -/
theorem powerOfRounded?_eq_none_iff :
    powerOfRounded? base exponent = none ↔
      base = 0 ∧ exponent < 0 ∨ Overflows ((base : ℚ) ^ exponent) := by
  rcases power_cases base exponent with ⟨rfl, hnegative⟩ | ⟨hdomain, exact, hexact⟩ | ⟨hbase, hnegative⟩
  · simp [powerOfRounded?, hnegative]
  · rw [powerOfRounded?_eq_round? hdomain hexact, round?_eq_none_iff, hexact]
    exact ⟨.inr, fun h ↦ h.resolve_left (by omega)⟩
  · rw [powerOfRounded?_eq_zero hbase hnegative]
    refine iff_of_false nofun ?_
    rintro (⟨rfl, -⟩ | hmore)
    · exact absurd hbase (by decide)
    · refine not_overflows_of_abs_le_one ?_ hmore
      exact le_trans (abs_zpow_le_half hbase hnegative) (by norm_num)

/-- What is no more than a half is rounded to something that is cut to nothing. -/
theorem truncated_of_abs_le_half {number place : ℚ} (hhalf : |number| ≤ 2⁻¹)
    (hrounds : RoundsTo number place) : truncated place = 0 := by
  obtain ⟨half, hvalue, -⟩ := exists_toRat?_eq false (2 ^ 52) (-53) (Nat.le_refl _)
    (by decide) (by decide) (by decide)
  have hsame : signed false (((2 ^ 52 : Nat) : ℚ) * 2 ^ (-53 : Int)) = 2⁻¹ := by
    norm_num [signed]
  rw [hsame] at hvalue
  exact truncated_eq_zero (lt_of_le_of_lt (hrounds.abs_place_le hvalue hhalf) (by norm_num))

/-- A power that has a value is correctly rounded and then cut toward zero. -/
theorem powerOfRounded?_roundsTo (h : powerOfRounded? base exponent = some value) :
    ∃ place, RoundsTo ((base : ℚ) ^ exponent) place ∧ value = truncated place := by
  rcases power_cases base exponent with ⟨rfl, hnegative⟩ | ⟨hdomain, exact, hexact⟩ | ⟨hbase, hnegative⟩
  · simp [powerOfRounded?, hnegative] at h
  · rw [powerOfRounded?_eq_round? hdomain hexact] at h
    rw [hexact]
    exact ⟨value, round?_roundsTo h, (truncated_intCast value).symm⟩
  · rw [powerOfRounded?_eq_zero hbase hnegative] at h
    obtain ⟨place, hplace⟩ := exists_roundsTo ((base : ℚ) ^ exponent)
    refine ⟨place, hplace, ?_⟩
    rw [← Option.some.inj h, truncated_of_abs_le_half (abs_zpow_le_half hbase hnegative) hplace]

/-- A power of one or minus one is one or minus one; it is negative if minus one is raised to an odd
number. -/
theorem natAbs_eq_one_of_powerOfRounded? (hbase : base.natAbs = 1)
    (h : powerOfRounded? base exponent = some value) :
    value.natAbs = 1 ∧ (value < 0 ↔ base = -1 ∧ exponent % 2 = 1) := by
  obtain rfl | rfl : base = 1 ∨ base = -1 := by omega
  · obtain rfl : 1 = value := Option.some.inj h
    exact ⟨rfl, by omega⟩
  · obtain rfl : (if exponent % 2 = 0 then 1 else -1) = value := Option.some.inj h
    split <;> omega

theorem natAbs_lt_of_powerOfRounded? (h : powerOfRounded? base exponent = some value) :
    value.natAbs < limit := by
  rcases power_cases base exponent with ⟨rfl, hnegative⟩ | ⟨hdomain, exact, hexact⟩ | ⟨hbase, hnegative⟩
  · simp [powerOfRounded?, hnegative] at h
  · rw [powerOfRounded?_eq_round? hdomain hexact] at h
    exact natAbs_lt_of_round? h
  · rw [powerOfRounded?_eq_zero hbase hnegative] at h
    rw [← Option.some.inj h]
    decide +kernel

end

end Binary64

open Binary64

section

variable {base exponent value : Int} {error : EvaluationError}

/-- Two integers whose power has no value: one of them, or the exact power of the two rounded ones,
is at least halfway from the greatest value to the power of two behind it, or zero is raised to a
negative number. -/
def HasNoPower (base exponent : Int) : Prop :=
  Overflows base ∨ Overflows exponent ∨ base = 0 ∧ exponent < 0 ∨
    ∃ roundedBase roundedExponent, round? base = some roundedBase ∧
      round? exponent = some roundedExponent ∧ Overflows ((roundedBase : ℚ) ^ roundedExponent)

theorem power?_eq_some_iff :
    power? base exponent = some value ↔
      ∃ roundedBase roundedExponent, round? base = some roundedBase ∧
        round? exponent = some roundedExponent ∧
        powerOfRounded? roundedBase roundedExponent = some value := by
  simp [power?, Option.bind_eq_some_iff]

theorem power?_eq_none_iff : power? base exponent = none ↔ HasNoPower base exponent := by
  unfold HasNoPower
  rw [← round?_eq_none_iff, ← round?_eq_none_iff, power?]
  cases hbase : round? base with
  | none => simp
  | some roundedBase =>
      cases hexponent : round? exponent with
      | none => simp
      | some roundedExponent =>
          rw [← round?_eq_zero_iff hbase, ← round?_neg_iff hexponent]
          simp [powerOfRounded?_eq_none_iff]

/-- A power of two integers is the correctly rounded power of their roundings, cut toward zero. A
negative exponent leaves nothing of a great base; a power of one or minus one is one or minus one, as
the rounded exponent is even or odd. -/
theorem exists_rounded_of_power? (h : power? base exponent = some value) :
    ∃ roundedBase roundedExponent,
      round? base = some roundedBase ∧ RoundsTo base roundedBase ∧
        round? exponent = some roundedExponent ∧ RoundsTo exponent roundedExponent ∧
        (∃ place, RoundsTo ((roundedBase : ℚ) ^ roundedExponent) place ∧ value = truncated place) ∧
        (2 ≤ base.natAbs → exponent < 0 → value = 0) ∧
        (base.natAbs = 1 →
          value.natAbs = 1 ∧ (value < 0 ↔ base = -1 ∧ roundedExponent % 2 = 1)) := by
  obtain ⟨roundedBase, roundedExponent, hbase, hexponent, hpower⟩ := power?_eq_some_iff.1 h
  refine ⟨roundedBase, roundedExponent, hbase, round?_roundsTo hbase, hexponent,
    round?_roundsTo hexponent, powerOfRounded?_roundsTo hpower, fun hgreat hnegative ↦ ?_,
    fun hunit ↦ ?_⟩
  · rw [powerOfRounded?_eq_zero (two_le_natAbs_of_round? hbase hgreat)
      ((round?_neg_iff hexponent).2 hnegative)] at hpower
    exact (Option.some.inj hpower).symm
  · rw [round?_of_natAbs_le (hunit ▸ by decide)] at hbase
    obtain rfl := Option.some.inj hbase
    exact natAbs_eq_one_of_powerOfRounded? hunit hpower

theorem natAbs_lt_of_power? (h : power? base exponent = some value) : value.natAbs < 2 ^ 1024 := by
  obtain ⟨_, _, -, -, hpower⟩ := power?_eq_some_iff.1 h
  exact natAbs_lt_of_powerOfRounded? hpower

/-- A power is narrow, since the range of binary64 is. -/
theorem isNarrow_of_power? (h : power? base exponent = some value) : IsNarrow value := by
  have hlimit : limit ≤ 2 ^ maxBits := by decide +kernel
  exact Nat.lt_of_lt_of_le (natAbs_lt_of_power? h) hlimit

theorem power_eq_ok_iff : power base exponent = .ok value ↔ power? base exponent = some value := by
  unfold power
  split
  next result hresult =>
      rw [narrow_of_isNarrow (isNarrow_of_power? hresult), hresult]
      simp
  next hnone => simp [hnone]

theorem power_eq_error_iff :
    power base exponent = .error error ↔
      HasNoPower base exponent ∧ error = .powerOutOfRange base exponent := by
  rw [← power?_eq_none_iff]
  unfold power
  split
  next result hresult => simp [narrow_of_isNarrow (isNarrow_of_power? hresult), hresult]
  next hnone => simp [hnone, eq_comm]

/-- Integers within the range where all integers are values are raised to a power as they are. -/
theorem power?_eq_round? (hbase : base.natAbs ≤ 2 ^ 53) (hlow : 0 ≤ exponent)
    (hhigh : exponent ≤ 2 ^ 53) : power? base exponent = round? (base ^ exponent.toNat) := by
  have hexact : (base : ℚ) ^ exponent = (base ^ exponent.toNat : Int) := by
    rw [Int.cast_pow, ← zpow_natCast, Int.toNat_of_nonneg hlow]
  rw [power?, round?_of_natAbs_le hbase, round?_of_natAbs_le (n := exponent) (by omega)]
  exact powerOfRounded?_eq_round? (.inr hlow) hexact

end

end DiceArithmetic
