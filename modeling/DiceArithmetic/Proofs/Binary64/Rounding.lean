import Mathlib.Algebra.Order.Field.Power
import Mathlib.Data.Rat.Floor
import Mathlib.Data.Prod.Lex
import Mathlib.Data.Fintype.EquivFin
import Mathlib.Data.Fintype.Lattice
import DiceArithmetic.Binary64.Power

/-!
# Rounding to binary64

What it is for a rational number to be rounded to binary64, said by nearness alone: `RoundsTo` goes
through all words of the format and knows nothing of binary digits. `round?_roundsTo` says that the
rounding of integers is that, and `round?_eq_none_iff` where it leaves the range. The candidates
around a natural number are the multiples of a power of two, its `spacing`; all of these lemmas come
from how near the chosen multiple is, see `exists_roundNat`.
-/

namespace DiceArithmetic

/-- A rational cut toward zero. -/
def truncated (number : ℚ) : Int :=
  if 0 ≤ number then ⌊number⌋ else ⌈number⌉

theorem truncated_intCast (value : Int) : truncated value = value := by
  unfold truncated
  split
  · exact Int.floor_intCast value
  · exact Int.ceil_intCast value

theorem truncated_neg (number : ℚ) : truncated (-number) = -truncated number := by
  unfold truncated
  rcases lt_trichotomy number 0 with hnegative | rfl | hpositive
  · rw [if_pos (neg_nonneg.2 hnegative.le), if_neg (not_le.2 hnegative), Int.floor_neg]
  · rfl
  · rw [if_neg (not_le.2 (neg_lt_zero.2 hpositive)), if_pos hpositive.le, Int.ceil_neg]

theorem truncated_eq_zero {number : ℚ} (h : |number| < 1) : truncated number = 0 := by
  obtain ⟨hlow, hhigh⟩ := abs_lt.1 h
  unfold truncated
  split
  next hsign => exact Int.floor_eq_zero_iff.2 ⟨hsign, hhigh⟩
  next hsign => exact Int.ceil_eq_zero_iff.2 ⟨hlow, (not_le.1 hsign).le⟩

/-- Integers are divided toward zero like rationals that are cut toward zero. -/
theorem truncated_div (dividend divisor : Int) :
    truncated (dividend / divisor) = dividend.tdiv divisor := by
  have hnatural (dividend divisor : Nat) :
      truncated ((dividend : Int) / (divisor : Int) : ℚ) = (dividend : Int).tdiv divisor := by
    have hnonneg : (0 : ℚ) ≤ (dividend : Int) / (divisor : Int) := by positivity
    rw [truncated, if_pos hnonneg, Int.cast_natCast (divisor : ℕ),
      Rat.floor_intCast_div_natCast, Int.tdiv_eq_ediv_of_nonneg (Int.natCast_nonneg dividend)]
  obtain ⟨numerator, rfl | rfl⟩ := dividend.eq_nat_or_neg <;>
    obtain ⟨denominator, rfl | rfl⟩ := divisor.eq_nat_or_neg
  · exact hnatural numerator denominator
  · rw [Int.cast_neg, div_neg, truncated_neg, hnatural, Int.tdiv_neg]
  · rw [Int.cast_neg, neg_div, truncated_neg, hnatural, Int.neg_tdiv]
  · rw [Int.cast_neg, Int.cast_neg, neg_div_neg_eq, hnatural, Int.neg_tdiv, Int.tdiv_neg, neg_neg]

namespace Binary64

/-- A magnitude with its sign. -/
def signed (negative : Bool) (magnitude : ℚ) : ℚ :=
  if negative then -magnitude else magnitude

/-- The rational that a word stands for, if it is a finite number. -/
def Meaning.toRat? : Meaning → Option ℚ
  | .notANumber | .infinite _ => none
  | .finite negative significand exponent => some (signed negative (significand * 2 ^ exponent))

/-- The rational that a finite value is. -/
def toRat? (value : Binary64) : Option ℚ :=
  value.meaning.toRat?

theorem signed_not (negative : Bool) (magnitude : ℚ) :
    signed (!negative) magnitude = -signed negative magnitude := by
  cases negative <;> simp [signed]

/-- The last digit of the significand is zero. -/
def IsEven (value : Binary64) : Prop :=
  value.fraction % 2 = 0

/-- The rational is rounded to this binary64 value: every other one is farther away, or it is as far
and is not the one to choose because its last digit is zero. -/
def RoundsTo (number place : ℚ) : Prop :=
  ∃ value : Binary64, value.toRat? = some place ∧
    ∀ (other : Binary64) (otherPlace : ℚ), other.toRat? = some otherPlace → otherPlace ≠ place →
      |number - place| < |number - otherPlace| ∨
        |number - place| = |number - otherPlace| ∧ (other.IsEven → value.IsEven)

/-- The rational is at least halfway from the greatest binary64 value to the power of two behind it,
or as far below zero. -/
def Overflows (number : ℚ) : Prop :=
  2 ^ 1024 - 2 ^ 970 ≤ |number|

section Words

/-- The word with these parts. -/
def ofParts (negative : Bool) (biased fraction : Nat) : Binary64 :=
  ⟨UInt64.ofNat ((if negative then 2 ^ 63 else 0) + biased * 2 ^ 52 + fraction)⟩

variable {negative : Bool} {biased fraction : Nat}

theorem toNat_ofParts (hbiased : biased < 2 ^ 11) (hfraction : fraction < 2 ^ 52) :
    (ofParts negative biased fraction).word.toNat =
      (if negative then 2 ^ 63 else 0) + biased * 2 ^ 52 + fraction := by
  refine UInt64.toNat_ofNat_of_lt' ?_
  show _ < 2 ^ 64
  split <;> omega

/-- A word has the parts that it is made of. -/
theorem parts_ofParts (hbiased : biased < 2 ^ 11) (hfraction : fraction < 2 ^ 52) :
    (ofParts negative biased fraction).isNegative = negative ∧
      (ofParts negative biased fraction).biasedExponent = biased ∧
      (ofParts negative biased fraction).fraction = fraction := by
  unfold isNegative biasedExponent Binary64.fraction
  rw [toNat_ofParts hbiased hfraction]
  cases negative with
  | false =>
      refine ⟨decide_eq_false ?_, ?_, ?_⟩ <;> simp only [Bool.false_eq_true, if_false] <;> omega
  | true => refine ⟨decide_eq_true ?_, ?_, ?_⟩ <;> simp only [if_true] <;> omega

theorem biasedExponent_lt (value : Binary64) : value.biasedExponent < 2 ^ 11 :=
  Nat.mod_lt _ (by decide)

theorem fraction_lt (value : Binary64) : value.fraction < 2 ^ 52 :=
  Nat.mod_lt _ (by decide)

theorem toRat?_ofParts (hpositive : 0 < biased) (hbiased : biased < 2047)
    (hfraction : fraction < 2 ^ 52) :
    (ofParts negative biased fraction).toRat? =
      some (signed negative ((2 ^ 52 + fraction : Nat) * 2 ^ ((biased : Int) - 1075))) := by
  obtain ⟨hsign, hexponent, hdigits⟩ :=
    @parts_ofParts negative biased fraction (by omega) hfraction
  rw [toRat?, meaning, if_neg (by omega), if_neg (by omega), hsign, hexponent, hdigits,
    Meaning.toRat?]

end Words

section Values

variable {number place : ℚ}

/-- A value has a sign, few digits, and an exponent within the range. -/
theorem exists_meaning {value : Binary64} (h : value.toRat? = some place) :
    ∃ significand exponent,
      value.meaning = .finite value.isNegative significand exponent ∧
        place = signed value.isNegative (significand * 2 ^ exponent) ∧
        significand < 2 ^ 53 ∧ exponent ≤ 971 := by
  have hfraction := value.fraction_lt
  have hbiased := value.biasedExponent_lt
  unfold toRat? meaning at h
  unfold meaning
  split at h
  next =>
      split at h <;> cases h
  next hspecial =>
      split at h
      next hsubnormal =>
          exact ⟨_, _, by rw [if_neg hspecial, if_pos hsubnormal], (Option.some.inj h).symm,
            by omega, by decide⟩
      next hnormal =>
          exact ⟨_, _, by rw [if_neg hspecial, if_neg hnormal], (Option.some.inj h).symm,
            by omega, by omega⟩

/-- A number with as many digits as a significand has is a value, within the range. -/
theorem exists_toRat?_eq (negative : Bool) (significand : Nat) (exponent : Int)
    (hlow : 2 ^ 52 ≤ significand) (hhigh : significand < 2 ^ 53) (hleast : -1074 ≤ exponent)
    (hgreatest : exponent ≤ 971) :
    ∃ value : Binary64, value.toRat? = some (signed negative (significand * 2 ^ exponent)) ∧
      (value.IsEven ↔ significand % 2 = 0) := by
  have hbiased : ((exponent + 1075).toNat : Int) = exponent + 1075 := Int.toNat_of_nonneg (by omega)
  have hparts := @parts_ofParts negative (exponent + 1075).toNat (significand - 2 ^ 52) (by omega)
    (by omega)
  refine ⟨ofParts negative (exponent + 1075).toNat (significand - 2 ^ 52), ?_, ?_⟩
  · rw [toRat?_ofParts (by omega) (by omega) (by omega), Nat.add_sub_cancel' hlow, hbiased,
      Int.add_sub_cancel]
  · rw [IsEven, hparts.2.2]
    omega

/-- The negative of a value is one, and ends with the same digit. -/
theorem exists_toRat?_neg {value : Binary64} (h : value.toRat? = some place) :
    ∃ other : Binary64, other.toRat? = some (-place) ∧ (other.IsEven ↔ value.IsEven) := by
  obtain ⟨hsign, hexponent, hdigits⟩ := @parts_ofParts (!value.isNegative) _ _
    value.biasedExponent_lt value.fraction_lt
  refine ⟨ofParts (!value.isNegative) value.biasedExponent value.fraction, ?_, by
    rw [IsEven, IsEven, hdigits]⟩
  obtain ⟨significand, exponent, hmeaning, rfl, -, -⟩ := exists_meaning h
  unfold meaning at hmeaning
  rw [toRat?, meaning, hsign, hexponent, hdigits]
  split at hmeaning
  next =>
      split at hmeaning <;> cases hmeaning
  next hspecial =>
      rw [if_neg hspecial]
      split at hmeaning
      next hsubnormal =>
          cases hmeaning
          rw [if_pos hsubnormal, Meaning.toRat?, signed_not]
      next hnormal =>
          cases hmeaning
          rw [if_neg hnormal, Meaning.toRat?, signed_not]

end Values

namespace RoundsTo

variable {number place : ℚ}

/-- A value is rounded to itself. -/
theorem of_toRat? {value : Binary64} (h : value.toRat? = some place) : RoundsTo place place := by
  refine ⟨value, h, fun other otherPlace _ hne ↦ .inl ?_⟩
  rw [sub_self, abs_zero]
  exact abs_pos.2 (sub_ne_zero.2 hne.symm)

theorem neg (h : RoundsTo number place) : RoundsTo (-number) (-place) := by
  obtain ⟨value, hvalue, hnearest⟩ := h
  obtain ⟨opposite, hopposite, heven⟩ := exists_toRat?_neg hvalue
  have hdistance (other : ℚ) : |-number - other| = |number - -other| := by
    rw [← abs_neg]
    exact congrArg abs (by ring)
  refine ⟨opposite, hopposite, fun other otherPlace hother hne ↦ ?_⟩
  obtain ⟨mirrored, hmirrored, hmirroredEven⟩ := exists_toRat?_neg hother
  rw [hdistance, hdistance, neg_neg, heven, ← hmirroredEven]
  exact hnearest mirrored (-otherPlace) hmirrored fun hsame ↦ hne (by rw [← hsame, neg_neg])

/-- No other value is nearer. -/
theorem distance_le (h : RoundsTo number place) {other : Binary64} {otherPlace : ℚ}
    (hother : other.toRat? = some otherPlace) : |number - place| ≤ |number - otherPlace| := by
  obtain ⟨value, hvalue, hnearest⟩ := h
  by_cases hsame : otherPlace = place
  · rw [hsame]
  · rcases hnearest other otherPlace hother hsame with hlt | ⟨heq, -⟩
    · exact hlt.le
    · exact heq.le

/-- Rounding does not lead past a value. -/
theorem abs_place_le {bound : ℚ} {value : Binary64} (h : RoundsTo number place)
    (hvalue : value.toRat? = some bound) (hbound : |number| ≤ bound) : |place| ≤ bound := by
  obtain ⟨opposite, hopposite, -⟩ := exists_toRat?_neg hvalue
  obtain ⟨hlow, hhigh⟩ := abs_le.1 hbound
  have habove : |number - place| ≤ bound - number := by
    rw [← abs_of_nonneg (sub_nonneg.2 hhigh), abs_sub_comm bound]
    exact h.distance_le hvalue
  have hbelow : |number - place| ≤ number - -bound := by
    rw [← abs_of_nonneg (sub_nonneg.2 hlow)]
    exact h.distance_le hopposite
  obtain ⟨hleft, -⟩ := abs_le.1 habove
  obtain ⟨-, hright⟩ := abs_le.1 hbelow
  exact abs_le.2 ⟨by linarith, by linarith⟩

end RoundsTo

instance : Finite Binary64 :=
  Finite.of_injective (fun value ↦ value.word.toFin) fun first second h ↦ by
    cases first
    cases second
    exact congrArg mk (UInt64.toFin_inj.1 h)

/-- Every rational is rounded to some value. -/
theorem exists_roundsTo (number : ℚ) : ∃ place, RoundsTo number place := by
  -- The value to choose is the least by its distance and then by its last digit.
  have : Nonempty { value : Binary64 // value.toRat?.isSome } := ⟨⟨⟨0⟩, rfl⟩⟩
  obtain ⟨⟨value, hvalue⟩, hleast⟩ := Finite.exists_min
    fun value : { value : Binary64 // value.toRat?.isSome } ↦
      toLex (|number - value.1.toRat?.get value.2|, value.1.fraction % 2)
  refine ⟨value.toRat?.get hvalue, value, (Option.some_get hvalue).symm, ?_⟩
  intro other otherPlace hother _
  have hle := hleast ⟨other, by rw [hother]; rfl⟩
  simp only [hother, Option.get_some, Prod.Lex.toLex_le_toLex] at hle
  rcases hle with hlt | ⟨heq, hdigit⟩
  · exact .inl hlt
  · refine .inr ⟨heq, fun heven ↦ ?_⟩
    unfold IsEven at heven ⊢
    omega

section Naturals

variable {n : Nat}

/-- How far apart the candidates around a natural number are. -/
def spacing (n : Nat) : Nat :=
  2 ^ (n.log2 + 1 - precision)

theorem spacing_pos (n : Nat) : 0 < spacing n :=
  Nat.two_pow_pos _

theorem spacing_eq_one (h : n < 2 ^ 53) : spacing n = 1 := by
  have hdigits : n.log2 + 1 - precision = 0 := by
    by_cases hzero : n = 0
    · simp [hzero, precision]
    · have hlog := (Nat.log2_lt hzero).2 h
      unfold precision
      omega
  rw [spacing, hdigits, Nat.pow_zero]

/-- Counted in steps of its spacing, a number has as many digits as a significand. -/
theorem spacing_bounds (h : 2 ^ 52 ≤ n) : 2 ^ 52 * spacing n ≤ n ∧ n < 2 ^ 53 * spacing n := by
  have hzero : n ≠ 0 := by omega
  have hlog : 52 ≤ n.log2 := (Nat.le_log2 hzero).2 h
  have hexponent : n.log2 = 52 + (n.log2 + 1 - precision) := by
    unfold precision
    omega
  have hlow := Nat.log2_self_le hzero
  have hhigh := Nat.lt_log2_self (n := n)
  rw [hexponent, Nat.pow_add] at hlow
  rw [hexponent, Nat.add_right_comm, Nat.pow_add] at hhigh
  exact ⟨hlow, hhigh⟩

/-- Rounding chooses a multiple of the spacing that is at most half of it away, and an even one if
it is just half of it away. -/
theorem exists_roundNat (n : Nat) :
    ∃ quotient : Nat, roundNat n = quotient * spacing n ∧
      2 * |(n : Int) - quotient * spacing n| ≤ spacing n ∧
      (2 * |(n : Int) - quotient * spacing n| = spacing n → quotient % 2 = 0) := by
  have hdivision := Nat.div_add_mod n (spacing n)
  have hremainder := Nat.mod_lt n (spacing_pos n)
  rw [Nat.mul_comm] at hdivision
  have hn : (n : Int) = (n / spacing n : Nat) * spacing n + (n % spacing n : Nat) := by
    exact_mod_cast hdivision.symm
  unfold roundNat
  simp only [← spacing.eq_1]
  split
  next hup =>
      refine ⟨_, rfl, ?_⟩
      have hdistance : (n : Int) - (n / spacing n + 1 : Nat) * spacing n =
          (n % spacing n : Nat) - spacing n := by
        rw [Nat.cast_add, Nat.cast_one, add_mul, one_mul]
        omega
      rw [hdistance, abs_of_neg (by omega)]
      omega
  next hdown =>
      refine ⟨_, rfl, ?_⟩
      have hdistance : (n : Int) - (n / spacing n : Nat) * spacing n = (n % spacing n : Nat) := by
        omega
      rw [hdistance, Nat.abs_cast]
      omega

/-- A number with few digits is rounded to itself. -/
theorem roundNat_of_lt (h : n < 2 ^ 53) : roundNat n = n := by
  obtain ⟨quotient, hround, hdistance, -⟩ := exists_roundNat n
  rw [spacing_eq_one h, Nat.cast_one, mul_one] at hdistance
  rw [hround, spacing_eq_one h, mul_one]
  have hsame := Int.abs_lt_one_iff.1 (show |(n : Int) - quotient| < 1 by omega)
  omega

/-- The chosen multiple has as many digits as a significand, or it is the next power of two. -/
theorem exists_roundNat_bounds (h : 2 ^ 52 ≤ n) :
    ∃ quotient : Nat, roundNat n = quotient * spacing n ∧ 2 ^ 52 ≤ quotient ∧ quotient ≤ 2 ^ 53 ∧
      2 * |(n : Int) - quotient * spacing n| ≤ spacing n ∧
      (2 * |(n : Int) - quotient * spacing n| = spacing n → quotient % 2 = 0) := by
  obtain ⟨quotient, hround, hdistance, htie⟩ := exists_roundNat n
  obtain ⟨hlow, hhigh⟩ := spacing_bounds h
  have hn : (2 ^ 52 * spacing n : Int) ≤ n ∧ (n : Int) < 2 ^ 53 * spacing n := mod_cast ⟨hlow, hhigh⟩
  have hpositive : (0 : Int) < spacing n := mod_cast spacing_pos n
  have hself := le_abs_self ((n : Int) - quotient * spacing n)
  have hneg := neg_abs_le ((n : Int) - quotient * spacing n)
  refine ⟨quotient, hround, ?_, ?_, hdistance, htie⟩
  · by_contra hless
    have hproduct : (quotient * spacing n : Int) ≤ (2 ^ 52 - 1) * spacing n :=
      Int.mul_le_mul_of_nonneg_right (by omega) hpositive.le
    omega
  · by_contra hmore
    have hproduct : ((2 ^ 53 + 1) * spacing n : Int) ≤ quotient * spacing n :=
      Int.mul_le_mul_of_nonneg_right (by omega) hpositive.le
    omega

/-- Relative to the number, what rounding adds or takes away is less than one part in `2 ^ 53`. -/
theorem distance_roundNat_lt (h : 0 < n) : 2 ^ 53 * |(roundNat n : Int) - n| < n := by
  by_cases hsmall : n < 2 ^ 53
  · rw [roundNat_of_lt hsmall, sub_self, abs_zero]
    omega
  · obtain ⟨quotient, hround, hdistance, -⟩ := exists_roundNat n
    have hlow : (2 ^ 52 * spacing n : Int) ≤ n := mod_cast (spacing_bounds (by omega)).1
    have hpositive : (0 : Int) < spacing n := mod_cast spacing_pos n
    rw [hround, Nat.cast_mul, abs_sub_comm]
    rcases hlow.lt_or_eq with hless | hequal
    · omega
    · -- A power of two is a multiple of its spacing, so it is less than half of that away.
      have hmultiple : (n : Int) - quotient * spacing n = (2 ^ 52 - quotient) * spacing n := by
        rw [← hequal, sub_mul]
      have hzero : (2 ^ 52 - quotient : Int) = 0 := by
        rw [hmultiple, abs_mul, Nat.abs_cast] at hdistance
        by_contra hne
        have hone : 1 ≤ |(2 ^ 52 - quotient : Int)| := Int.one_le_abs hne
        have hproduct := Int.mul_le_mul_of_nonneg_right hone hpositive.le
        omega
      rw [hmultiple, hzero, zero_mul, abs_zero]
      omega

/-- Rounding does not lead below a power of two. -/
theorem two_pow_le_roundNat {exponent : Nat} (hexponent : 52 ≤ exponent) (h : 2 ^ exponent ≤ n) :
    2 ^ exponent ≤ roundNat n := by
  have hzero : n ≠ 0 := Nat.ne_of_gt (Nat.lt_of_lt_of_le (Nat.two_pow_pos exponent) h)
  have hlog : exponent ≤ n.log2 := (Nat.le_log2 hzero).2 h
  obtain ⟨quotient, hround, hlow, -⟩ := exists_roundNat_bounds
    (Nat.le_trans (Nat.pow_le_pow_right (by decide) hexponent) h)
  calc 2 ^ exponent ≤ 2 ^ (52 + (n.log2 + 1 - precision)) := by
        refine Nat.pow_le_pow_right (by decide) ?_
        unfold precision
        omega
    _ = 2 ^ 52 * spacing n := Nat.pow_add ..
    _ ≤ quotient * spacing n := Nat.mul_le_mul_right _ hlow
    _ = roundNat n := hround.symm

/-- In the last stretch of the range, the multiple chosen is the power of two behind the greatest
value just from the middle between the two on. -/
theorem multiple_lt_iff {quotient half : Nat} (hpositive : 0 < half) (hhigh : quotient ≤ 2 ^ 53)
    (hdistance : 2 * |(n : Int) - quotient * (2 * half : Nat)| ≤ (2 * half : Nat))
    (htie : 2 * |(n : Int) - quotient * (2 * half : Nat)| = (2 * half : Nat) →
      quotient % 2 = 0) :
    quotient * (2 * half) < 2 ^ 54 * half ↔ n < 2 ^ 54 * half - half := by
  push_cast at hdistance htie
  have hself := le_abs_self ((n : Int) - quotient * (2 * half))
  have hneg := neg_abs_le ((n : Int) - quotient * (2 * half))
  rcases Nat.lt_or_eq_of_le hhigh with hless | rfl
  · have hproduct : (quotient * (2 * half) : Int) ≤ (2 ^ 53 - 1) * (2 * half) :=
      Int.mul_le_mul_of_nonneg_right (by omega) (by omega)
    refine iff_of_true (by zify; omega) ?_
    by_contra hmore
    have hequal : (quotient * (2 * half) : Int) = (2 ^ 53 - 1) * (2 * half) := by omega
    have hodd := Int.eq_of_mul_eq_mul_right (by omega) hequal
    omega
  · refine iff_of_false (by omega) ?_
    push_cast at hdistance hneg
    omega

/-- Rounding leaves the range from the middle between the greatest value and the power of two behind
it on. -/
theorem roundNat_lt_limit_iff (n : Nat) : roundNat n < limit ↔ n < 2 ^ 1024 - 2 ^ 970 := by
  have hlimit : 2 ^ 1024 = 2 ^ 54 * 2 ^ 970 := by decide +kernel
  have hhalf : 2 ^ 1023 = 2 ^ 53 * 2 ^ 970 := by decide +kernel
  have hpositive : 0 < 2 ^ 970 := Nat.two_pow_pos 970
  unfold limit
  by_cases hbelow : n < 2 ^ 1023
  · -- Far below the limit, rounding does not even double a number.
    have hround : roundNat n < 2 ^ 1024 := by
      by_cases hsmall : n < 2 ^ 53
      · rw [roundNat_of_lt hsmall]
        omega
      · have hdistance := distance_roundNat_lt (n := n) (by omega)
        have hself := le_abs_self ((roundNat n : Int) - n)
        omega
    omega
  · have hzero : n ≠ 0 := by omega
    obtain ⟨quotient, hround, hlow, hhigh, hdistance, htie⟩ :=
      exists_roundNat_bounds (n := n) (by omega)
    by_cases habove : n < 2 ^ 1024
    · have hlog : n.log2 = 1023 := by
        have hleast := (Nat.le_log2 hzero).2 (Nat.le_of_not_lt hbelow)
        have hgreatest := (Nat.log2_lt hzero).2 habove
        omega
      have hspacing : spacing n = 2 * 2 ^ 970 := by
        rw [spacing, hlog]
        decide +kernel
      generalize 2 ^ 970 = half at *
      rw [hspacing] at hround hdistance htie
      rw [hround, hlimit]
      exact multiple_lt_iff hpositive hhigh hdistance htie
    · have hmore := two_pow_le_roundNat (by decide) (Nat.le_of_not_lt habove)
      omega

/-- A number with few digits is a value. -/
theorem exists_toRat?_natCast (h : n < 2 ^ 53) : ∃ value : Binary64, value.toRat? = some (n : ℚ) := by
  by_cases hzero : n = 0
  · refine ⟨⟨0⟩, ?_⟩
    rw [hzero, Nat.cast_zero]
    show some (signed false (((0 : Nat) : ℚ) * 2 ^ (-1074 : Int))) = some 0
    rw [Nat.cast_zero, zero_mul]
    rfl
  · have hlog := (Nat.log2_lt hzero).2 h
    have hlow := Nat.log2_self_le hzero
    have hhigh := Nat.lt_log2_self (n := n)
    obtain ⟨missing, hmissing⟩ := Nat.exists_eq_add_of_lt hlog
    have hscaled : 2 ^ 52 ≤ n * 2 ^ missing ∧ n * 2 ^ missing < 2 ^ 53 := by
      have hexponent : 52 = n.log2 + missing := by omega
      constructor
      · rw [hexponent, Nat.pow_add]
        exact Nat.mul_le_mul_right _ hlow
      · rw [hmissing, Nat.add_right_comm, Nat.pow_add]
        exact Nat.mul_lt_mul_of_pos_right hhigh (Nat.two_pow_pos missing)
    obtain ⟨value, hvalue, -⟩ := exists_toRat?_eq false _ (-missing) hscaled.1 hscaled.2
      (by omega) (by omega)
    refine ⟨value, hvalue.trans (congrArg some ?_)⟩
    rw [signed, if_neg Bool.false_ne_true, Nat.cast_mul, zpow_neg, zpow_natCast, Nat.cast_pow,
      Nat.cast_ofNat, mul_assoc, mul_inv_cancel₀ (by positivity), mul_one]

/-- A chosen multiple within the range is a value, and ends with an even digit if the multiple is
even. -/
theorem exists_toRat?_multiple {quotient exponent : Nat} (hlow : 2 ^ 52 ≤ quotient)
    (hhigh : quotient ≤ 2 ^ 53) (hlimit : quotient * 2 ^ exponent < limit) :
    ∃ value : Binary64, value.toRat? = some ((quotient * 2 ^ exponent : Nat) : ℚ) ∧
      (quotient % 2 = 0 → value.IsEven) := by
  have hexponent {digits : Nat} (h : 2 ^ digits ≤ quotient) : digits + exponent < 1024 := by
    have hproduct := Nat.lt_of_le_of_lt (Nat.mul_le_mul_right (2 ^ exponent) h) hlimit
    rwa [← Nat.pow_add, limit, Nat.pow_lt_pow_iff_right (by decide)] at hproduct
  rcases Nat.lt_or_eq_of_le hhigh with hless | rfl
  · have hbound := hexponent hlow
    obtain ⟨value, hvalue, heven⟩ := exists_toRat?_eq false _ exponent hlow hless
      (by omega) (by omega)
    refine ⟨value, hvalue.trans (congrArg some ?_), heven.2⟩
    rw [signed, if_neg Bool.false_ne_true, zpow_natCast]
    push_cast
    rfl
  · have hbound := hexponent (Nat.le_refl _)
    obtain ⟨value, hvalue, heven⟩ := exists_toRat?_eq false (2 ^ 52) (exponent + 1 : Nat)
      (Nat.le_refl _) (by decide) (by omega) (by omega)
    refine ⟨value, hvalue.trans (congrArg some ?_), fun _ ↦ heven.2 (by decide)⟩
    rw [signed, if_neg Bool.false_ne_true, zpow_natCast, pow_succ']
    push_cast
    ring

/-- Of the multiples of a unit, one that is at most half of the unit away is the nearest, and another
one is as near only if it is just half of the unit away. -/
theorem nearest_multiple {number unit : ℚ} {chosen other : Int} (hunit : 0 < unit)
    (hdistance : 2 * |number - chosen * unit| ≤ unit) (hne : other ≠ chosen) :
    |number - chosen * unit| < |number - other * unit| ∨
      |number - chosen * unit| = |number - other * unit| ∧
        2 * |number - chosen * unit| = unit := by
  have hapart : unit ≤ |(other - chosen) * unit| := by
    rw [abs_mul, abs_of_pos hunit]
    have hone : (1 : ℚ) ≤ |(other - chosen : Int)| := mod_cast Int.one_le_abs (sub_ne_zero.2 hne)
    push_cast at hone
    exact le_mul_of_one_le_left hunit.le hone
  have htriangle : |(other - chosen) * unit| ≤
      |number - chosen * unit| + |number - other * unit| := by
    rw [← abs_neg (number - other * unit)]
    refine le_trans (le_of_eq (congrArg abs ?_)) (abs_add_le _ _)
    ring
  rcases lt_or_eq_of_le (show |number - chosen * unit| ≤ |number - other * unit| by linarith) with
    hless | hequal
  · exact .inl hless
  · exact .inr ⟨hequal, by linarith⟩

theorem abs_signed (negative : Bool) (magnitude : ℚ) : |signed negative magnitude| = |magnitude| := by
  cases negative <;> simp [signed]

/-- A value is a multiple of the spacing of a number, or it is nearer to zero than all such
numbers. -/
theorem multiple_or_less {value : Binary64} {place : ℚ} (hvalue : value.toRat? = some place)
    (n : Nat) : (∃ quotient : Int, place = quotient * spacing n) ∨ |place| < 2 ^ 52 * spacing n := by
  obtain ⟨significand, exponent, -, rfl, hdigits, -⟩ := exists_meaning hvalue
  have hspacing : (spacing n : ℚ) = 2 ^ ((n.log2 + 1 - precision : Nat) : Int) := by
    rw [spacing, zpow_natCast]
    push_cast
    rfl
  rw [hspacing]
  generalize ((n.log2 + 1 - precision : Nat) : Int) = unit
  rcases le_or_gt unit exponent with hcoarse | hfine
  · -- The value has no digits below the spacing.
    obtain ⟨zeros, rfl⟩ := Int.le.dest hcoarse
    refine .inl ⟨if value.isNegative then -(significand * 2 ^ zeros) else significand * 2 ^ zeros, ?_⟩
    rw [zpow_add₀ two_ne_zero, zpow_natCast, signed]
    split <;> push_cast <;> ring
  · right
    have hdigits : (significand : ℚ) < 2 ^ 53 := mod_cast hdigits
    calc |signed value.isNegative (significand * 2 ^ exponent)| = significand * 2 ^ exponent := by
          rw [abs_signed, abs_of_nonneg (by positivity)]
      _ ≤ significand * 2 ^ (unit - 1) := by
          gcongr
          · exact one_le_two
          · omega
      _ < 2 ^ 53 * 2 ^ (unit - 1) := by gcongr
      _ = 2 ^ 52 * 2 ^ unit := by
          rw [zpow_sub_one₀ two_ne_zero]
          ring

/-- The rounding of a natural number is the one that nearness says, if it is within the range. -/
theorem roundNat_roundsTo (h : roundNat n < limit) : RoundsTo n (roundNat n) := by
  by_cases hsmall : n < 2 ^ 53
  · obtain ⟨value, hvalue⟩ := exists_toRat?_natCast hsmall
    rw [roundNat_of_lt hsmall]
    exact .of_toRat? hvalue
  · have hlow : 2 ^ 52 ≤ n := by omega
    obtain ⟨quotient, hround, hleast, hgreatest, hdistance, htie⟩ := exists_roundNat_bounds hlow
    rw [hround] at h ⊢
    obtain ⟨value, hvalue, heven⟩ := exists_toRat?_multiple hleast hgreatest h
    refine ⟨value, hvalue, fun other otherPlace hother hne ↦ ?_⟩
    have hunit : (0 : ℚ) < spacing n := mod_cast spacing_pos n
    have hnear : 2 * |(n : ℚ) - (quotient : Int) * spacing n| ≤ spacing n := mod_cast hdistance
    push_cast
    push_cast at hne
    rcases multiple_or_less hother n with ⟨multiple, rfl⟩ | hless
    · -- Another multiple is as near only if the number lies in the middle of the two.
      have hne : multiple ≠ quotient := by
        rintro rfl
        exact hne rfl
      refine (nearest_multiple hunit hnear hne).imp id fun ⟨hequal, hmiddle⟩ ↦ ⟨hequal, fun _ ↦ ?_⟩
      exact heven (htie (mod_cast hmiddle))
    · -- The least multiple with all digits is nearer than anything below it.
      left
      have hleastNear : |(n : ℚ) - (quotient : Int) * spacing n| ≤ |(n : ℚ) - 2 ^ 52 * spacing n| := by
        by_cases hsame : (2 ^ 52 : Int) = quotient
        · rw [← hsame]
          norm_num
        · rcases nearest_multiple hunit hnear hsame with hlt | ⟨heq, -⟩
          · exact_mod_cast hlt.le
          · exact_mod_cast heq.le
      have hmore : (2 ^ 52 * spacing n : ℚ) ≤ n := mod_cast (spacing_bounds hlow).1
      calc |(n : ℚ) - quotient * spacing n| ≤ |(n : ℚ) - 2 ^ 52 * spacing n| := mod_cast hleastNear
        _ = n - 2 ^ 52 * spacing n := abs_of_nonneg (sub_nonneg.2 hmore)
        _ < n - otherPlace := sub_lt_sub_left (lt_of_le_of_lt (le_abs_self _) hless) _
        _ ≤ |(n : ℚ) - otherPlace| := le_abs_self _

end Naturals

section Integers

variable {n rounded : Int}

/-- The rounding of an integer is that of its magnitude, with its sign. -/
theorem round?_eq_some_iff :
    round? n = some rounded ↔
      roundNat n.natAbs < limit ∧ rounded = n.sign * roundNat n.natAbs := by
  have hsigned :
      (if n < 0 then -(roundNat n.natAbs : Int) else roundNat n.natAbs) =
        n.sign * roundNat n.natAbs := by
    rcases lt_trichotomy n 0 with hnegative | rfl | hpositive
    · rw [if_pos hnegative, Int.sign_eq_neg_one_of_neg hnegative, neg_one_mul]
    · rfl
    · rw [if_neg hpositive.le.not_gt, Int.sign_eq_one_of_pos hpositive, one_mul]
  unfold round?
  simp only [hsigned]
  split
  next hsome => simp [hsome, eq_comm]
  next hnone => simp [hnone]

theorem overflows_intCast (n : Int) : Overflows n ↔ 2 ^ 1024 - 2 ^ 970 ≤ n.natAbs := by
  have hle : 2 ^ 970 ≤ 2 ^ 1024 := by decide +kernel
  rw [Overflows, ← Int.cast_abs, ← Nat.cast_natAbs, ← Nat.cast_le (α := ℚ), Nat.cast_sub hle]
  push_cast
  rfl

/-- An integer is not rounded if it is at least halfway to the power of two behind the greatest
value. -/
theorem round?_eq_none_iff : round? n = none ↔ Overflows n := by
  rw [overflows_intCast, ← not_lt, ← roundNat_lt_limit_iff]
  unfold round?
  simp only
  split
  next hsome => simp [hsome]
  next hnone => simp [hnone]

/-- The rounding of an integer is the one that nearness says. -/
theorem round?_roundsTo (h : round? n = some rounded) : RoundsTo n rounded := by
  obtain ⟨hlimit, rfl⟩ := round?_eq_some_iff.1 h
  have hnear := roundNat_roundsTo hlimit
  rcases lt_trichotomy n 0 with hnegative | rfl | hpositive
  · have hneg : (n.natAbs : ℚ) = -n := by
      rw [Nat.cast_natAbs, abs_of_neg hnegative, Int.cast_neg]
    rw [Int.sign_eq_neg_one_of_neg hnegative, neg_one_mul, Int.cast_neg, Int.cast_natCast]
    rw [hneg] at hnear
    simpa using hnear.neg
  · exact_mod_cast hnear
  · have hself : (n.natAbs : ℚ) = n := by
      rw [Nat.cast_natAbs, abs_of_pos hpositive]
    rw [Int.sign_eq_one_of_pos hpositive, one_mul, Int.cast_natCast]
    rwa [hself] at hnear

theorem natAbs_of_round? (h : round? n = some rounded) : rounded.natAbs = roundNat n.natAbs := by
  obtain ⟨-, rfl⟩ := round?_eq_some_iff.1 h
  rw [Int.natAbs_mul, Int.natAbs_natCast]
  by_cases hzero : n = 0
  · rw [hzero]
    rfl
  · rw [Int.natAbs_sign_of_ne_zero hzero, Nat.one_mul]

theorem natAbs_lt_of_round? (h : round? n = some rounded) : rounded.natAbs < limit := by
  rw [natAbs_of_round? h]
  exact (round?_eq_some_iff.1 h).1

/-- Relative to the integer, what rounding adds or takes away is less than one part in `2 ^ 53`. -/
theorem distance_round?_lt (h : round? n = some rounded) (hn : n ≠ 0) :
    2 ^ 53 * |rounded - n| < |n| := by
  obtain ⟨-, rfl⟩ := round?_eq_some_iff.1 h
  have hmagnitude := distance_roundNat_lt (Int.natAbs_pos.2 hn)
  have hdistance : n.sign * (roundNat n.natAbs : Int) - n =
      n.sign * ((roundNat n.natAbs : Int) - n.natAbs) := by
    rw [mul_sub, Int.sign_mul_natAbs]
  rwa [hdistance, abs_mul, Int.abs_sign_of_ne_zero hn, one_mul, Int.abs_eq_natAbs n]

/-- Rounding keeps the sign. -/
theorem sign_of_round? (h : round? n = some rounded) : rounded.sign = n.sign := by
  by_cases hzero : n = 0
  · obtain ⟨-, rfl⟩ := round?_eq_some_iff.1 h
    rw [hzero]
    rfl
  · have hdistance := distance_round?_lt h hzero
    rcases lt_or_gt_of_ne hzero with hnegative | hpositive
    · rw [abs_of_neg hnegative] at hdistance
      have hself := le_abs_self (rounded - n)
      rw [Int.sign_eq_neg_one_of_neg hnegative, Int.sign_eq_neg_one_of_neg (by omega)]
    · rw [abs_of_pos hpositive] at hdistance
      have hneg := neg_abs_le (rounded - n)
      rw [Int.sign_eq_one_of_pos hpositive, Int.sign_eq_one_of_pos (by omega)]

theorem round?_eq_zero_iff (h : round? n = some rounded) : rounded = 0 ↔ n = 0 := by
  rw [← Int.sign_eq_zero_iff_zero, sign_of_round? h, Int.sign_eq_zero_iff_zero]

theorem round?_neg_iff (h : round? n = some rounded) : rounded < 0 ↔ n < 0 := by
  rw [← Int.sign_neg_iff, sign_of_round? h, Int.sign_neg_iff]

/-- Rounding does not lead down to one. -/
theorem two_le_natAbs_of_round? (h : round? n = some rounded) (hn : 2 ≤ n.natAbs) :
    2 ≤ rounded.natAbs := by
  have hdistance := distance_round?_lt h (by omega)
  rw [Int.abs_eq_natAbs, Int.abs_eq_natAbs] at hdistance
  omega

/-- An integer of at most 53 binary digits, or just `2 ^ 53`, is rounded to itself. -/
theorem round?_of_natAbs_le (h : n.natAbs ≤ 2 ^ 53) : round? n = some n := by
  have hsame : roundNat n.natAbs = n.natAbs := by
    by_cases hzero : n = 0
    · rw [hzero]
      rfl
    · have hdistance := distance_roundNat_lt (Int.natAbs_pos.2 hzero)
      have hself := le_abs_self ((roundNat n.natAbs : Int) - n.natAbs)
      have hneg := neg_abs_le ((roundNat n.natAbs : Int) - n.natAbs)
      omega
  refine round?_eq_some_iff.2 ⟨?_, ?_⟩
  · rw [hsame]
    exact Nat.lt_of_le_of_lt h (show 2 ^ 53 < limit by decide +kernel)
  · rw [hsame, Int.sign_mul_natAbs]

end Integers

end Binary64

end DiceArithmetic
