import Mathlib.Algebra.Ring.Periodic
import Mathlib.Data.Nat.Bitwise
import DiceArithmetic.Instances

/-!
# Masks on sequences of bits

A mask is a natural number, and stands for the polynomial over the field with two elements that has
its bits for coefficients. From a place of a sequence of bits on it reads the exclusive or of the
bits under its ones. A mask kills a sequence if it reads zero from every place. Two masks that are
coprime do not kill the same sequence, unless that is zero: `Kills.eq_false_of_coprime`.
-/

namespace DiceArithmetic

/-- The exclusive or of the bits from this place on where the mask has ones. -/
def reading (mask : Nat) (bits : Nat → Bool) (place : Nat) : Bool :=
  if mask = 0 then false
  else (mask.testBit 0 && bits place) ^^ reading (mask / 2) bits (place + 1)

variable {bits : Nat → Bool} {mask other period : Nat}

@[simp] theorem reading_zero (place : Nat) : reading 0 bits place = false := by
  rw [reading, if_pos rfl]

theorem reading_eq (mask : Nat) (bits : Nat → Bool) (place : Nat) :
    reading mask bits place =
      ((mask.testBit 0 && bits place) ^^ reading (mask / 2) bits (place + 1)) := by
  by_cases hzero : mask = 0
  · simp [hzero]
  · rw [reading, if_neg hzero]

@[simp] theorem reading_one (place : Nat) : reading 1 bits place = bits place := by
  simp [reading_eq 1]

theorem reading_two_mul (mask place : Nat) :
    reading (2 * mask) bits place = reading mask bits (place + 1) := by
  rw [reading_eq (2 * mask)]
  simp

theorem reading_xor (mask other place : Nat) :
    reading (mask ^^^ other) bits place =
      (reading mask bits place ^^ reading other bits place) := by
  induction mask using Nat.strongRecOn generalizing other place with
  | ind mask ih =>
      by_cases hzero : mask = 0
      · simp [hzero]
      · rw [reading_eq (mask ^^^ other), reading_eq mask, reading_eq other, Nat.xor_div_two,
          ih (mask / 2) (by omega), Nat.testBit_xor]
        cases mask.testBit 0 <;> cases other.testBit 0 <;> cases bits place <;> simp

theorem reading_shiftLeft (mask count place : Nat) :
    reading (mask <<< count) bits place = reading mask bits (place + count) := by
  induction count generalizing place with
  | zero => rfl
  | succ count ih =>
      rw [Nat.shiftLeft_succ, reading_two_mul, ih]
      congr 1
      omega

/-- From zeros nothing but zeros is read. -/
theorem reading_eq_false (h : ∀ place, bits place = false) (mask place : Nat) :
    reading mask bits place = false := by
  induction mask using Nat.strongRecOn generalizing place with
  | ind mask ih =>
      by_cases hzero : mask = 0
      · simp [hzero]
      · rw [reading_eq, h, ih (mask / 2) (by omega), Bool.and_false, Bool.xor_false]

/-- What is read from a periodic sequence is periodic. -/
theorem reading_periodic (hperiod : bits.Periodic period) (mask : Nat) :
    (reading mask bits).Periodic period := by
  induction mask using Nat.strongRecOn with
  | ind mask ih =>
      intro place
      by_cases hzero : mask = 0
      · simp [hzero]
      · rw [reading_eq, reading_eq mask bits place, hperiod place,
          show place + period + 1 = place + 1 + period by omega,
          ih (mask / 2) (by omega) (place + 1)]

/-- The mask reads zero everywhere. -/
def Kills (mask : Nat) (bits : Nat → Bool) : Prop :=
  ∀ place, reading mask bits place = false

theorem Kills.xor (h : Kills mask bits) (hother : Kills other bits) :
    Kills (mask ^^^ other) bits := by
  intro place
  rw [reading_xor, h, hother]
  rfl

/-- A sequence is killed by the exclusive or of a period later and now. -/
theorem kills_of_periodic (hperiod : bits.Periodic period) : Kills ((1 <<< period) ^^^ 1) bits := by
  intro place
  rw [reading_xor, reading_shiftLeft, reading_one, reading_one, hperiod, Bool.xor_self]

/-- In a periodic sequence a reading from the place before is one from a place behind. -/
theorem Kills.half (hperiod : bits.Periodic period) (hpos : 0 < period) (h : Kills mask bits)
    (heven : mask % 2 = 0) : Kills (mask / 2) bits := by
  intro place
  obtain ⟨half, rfl⟩ : ∃ half, mask = 2 * half := ⟨mask / 2, by omega⟩
  obtain ⟨before, rfl⟩ : ∃ before, period = before + 1 := ⟨period - 1, by omega⟩
  have hread := h (place + before)
  rw [reading_two_mul, add_assoc, reading_periodic hperiod] at hread
  rwa [Nat.mul_div_cancel_left half two_pos]

/-! ## Euclid's algorithm -/

/-- Whether so many steps of Euclid's algorithm bring masks, the first of them odd, down to one.
Powers of two do not count. -/
def coprime : (steps : Nat) → (mask other : Nat) → Bool
  | 0, _, _ => false
  -- Tests of booleans, since the kernel computes them faster than decisions.
  | steps + 1, mask, other =>
      bif other.beq 1 then true
      else bif (other % 2).beq 0 then coprime steps mask (other / 2)
      else bif mask.ble other then coprime steps mask ((mask ^^^ other) / 2)
      else coprime steps other ((mask ^^^ other) / 2)

/-- A periodic sequence that is killed by coprime masks is zero. -/
theorem Kills.eq_false_of_coprime (hperiod : bits.Periodic period) (hpos : 0 < period)
    {steps : Nat} (h : Kills mask bits) (hother : Kills other bits) (hodd : mask % 2 = 1)
    (hcoprime : coprime steps mask other) (place : Nat) : bits place = false := by
  induction steps generalizing mask other with
  | zero => cases hcoprime
  | succ steps ih =>
      rw [coprime] at hcoprime
      cases hone : other.beq 1 with
      | true =>
          have hread := hother place
          rwa [Nat.eq_of_beq_eq_true hone, reading_one] at hread
      | false =>
          rw [hone, cond_false] at hcoprime
          cases heven : (other % 2).beq 0 with
          | true =>
              rw [heven, cond_true] at hcoprime
              have hhalf := hother.half hperiod hpos (Nat.eq_of_beq_eq_true heven)
              exact ih h hhalf hodd hcoprime
          | false =>
              rw [heven, cond_false] at hcoprime
              have hother_odd : other % 2 = 1 :=
                Nat.mod_two_ne_zero.1 (Nat.ne_of_beq_eq_false heven)
              have hsum : Kills ((mask ^^^ other) / 2) bits := by
                refine (h.xor hother).half hperiod hpos ?_
                rw [Nat.xor_mod_two_eq]
                omega
              cases hle : mask.ble other with
              | true => exact ih h hsum hodd (by rwa [hle, cond_true] at hcoprime)
              | false => exact ih hother hsum hother_odd (by rwa [hle, cond_false] at hcoprime)

/-- The mask with its upper part laid over the lower one, again and again: the parts are first
`2 ^ (times - 1)` periods long, and one period in the end. -/
def folded (period : Nat) : (times : Nat) → (mask : Nat) → Nat
  | 0, mask => mask
  | times + 1, mask =>
      folded period times
        ((mask % 2 ^ (period * 2 ^ times)) ^^^ (mask >>> (period * 2 ^ times)))

/-- A mask is its lower part and its upper part. -/
theorem xor_shiftLeft_parts (mask count : Nat) :
    (mask % 2 ^ count) ^^^ ((mask >>> count) <<< count) = mask := by
  refine Nat.eq_of_testBit_eq fun place ↦ ?_
  rw [Nat.testBit_xor, Nat.testBit_mod_two_pow, Nat.testBit_shiftLeft, Nat.testBit_shiftRight]
  by_cases hlow : place < count
  · simp [hlow, Nat.not_le.2 hlow]
  · simp [hlow, Nat.not_lt.1 hlow]

/-- Folding a mask does not change what it reads from a periodic sequence. -/
theorem reading_folded (hperiod : bits.Periodic period) (times mask place : Nat) :
    reading (folded period times mask) bits place = reading mask bits place := by
  induction times generalizing mask with
  | zero => rfl
  | succ times ih =>
      let count := period * 2 ^ times
      have hlong : (reading (mask >>> count) bits).Periodic count := by
        rw [show count = 2 ^ times * period from mul_comm _ _]
        exact (reading_periodic hperiod _).nat_mul (2 ^ times)
      calc reading (folded period times ((mask % 2 ^ count) ^^^ (mask >>> count))) bits place
          = (reading (mask % 2 ^ count) bits place ^^ reading (mask >>> count) bits place) := by
            rw [ih, reading_xor]
        _ = (reading (mask % 2 ^ count) bits place ^^
              reading ((mask >>> count) <<< count) bits place) := by
            rw [reading_shiftLeft, hlong place]
        _ = reading mask bits place := by rw [← reading_xor, xor_shiftLeft_parts]

end DiceArithmetic
