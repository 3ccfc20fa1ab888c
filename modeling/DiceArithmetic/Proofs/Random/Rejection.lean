import Mathlib.Data.Fintype.BigOperators
import DiceArithmetic.Proofs.Random.Stream

/-!
# Rejection

A number below a bound is the first candidate that is less than the bound, if there is one:
`IsFirst.below_eq`. For every bound below `2 ^ 14336` there is one, whatever the twister:
`exists_isFirst`. If all candidates were rejected, their uppermost bits would always be one; but
these are a parity of words that lie a short distance apart in the stream.
-/

namespace DiceArithmetic

namespace Twister

variable {twister : Twister} {bound count n : Nat}

/-! ## Numbers of many bits -/

theorem bits_of_le (h : count ≤ 32) (twister : Twister) :
    bits count twister =
      ((nextWord twister).1.toNat / 2 ^ (32 - count), twister.ahead 1) := by
  rw [bits]
  simp only [h, if_true]
  rfl

theorem bits_of_lt (h : 32 < count) (twister : Twister) :
    bits count twister =
      ((bits (count - 32) (twister.ahead 1)).1 * 2 ^ 32 + (nextWord twister).1.toNat,
        (bits (count - 32) (twister.ahead 1)).2) := by
  rw [bits]
  simp only [Nat.not_le.2 h, if_false]
  rfl

/-- The uppermost bit of a word says whether it is in the upper half. -/
theorem bit_top_iff (word : UInt32) : bit word 31 = true ↔ 2 ^ 31 ≤ word.toNat := by
  have hlt := word.toNat_lt
  rw [bit, BitVec.getLsbD, UInt32.toNat_toBitVec, Nat.testBit_eq_decide_div_mod_eq]
  simp only [decide_eq_true_eq]
  omega

/-- A number takes one word for 32 bits, and one more for what is left of them. -/
theorem bits_snd (twister : Twister) :
    (bits (count + 1) twister).2 = twister.ahead (count / 32 + 1) := by
  induction count using Nat.strongRecOn generalizing twister with
  | ind count ih =>
      by_cases hfew : count + 1 ≤ 32
      · rw [bits_of_le hfew, Nat.div_eq_of_lt hfew]
      · rw [bits_of_lt (by omega), show count + 1 - 32 = count - 32 + 1 by omega,
          ih (count - 32) (by omega), ahead_ahead]
        congr 1
        omega

/-- If a number has its uppermost bit, so has the last of its words. -/
theorem bit_top_of_le_bits (h : 2 ^ count ≤ (bits (count + 1) twister).1) :
    bit (nextWord (twister.ahead (count / 32))).1 31 = true := by
  induction count using Nat.strongRecOn generalizing twister with
  | ind count ih =>
      by_cases hfew : count + 1 ≤ 32
      · rw [bits_of_le hfew, Nat.le_div_iff_mul_le (Nat.two_pow_pos _), ← pow_add,
          show count + (32 - (count + 1)) = 31 by omega] at h
        rw [Nat.div_eq_of_lt hfew]
        exact (bit_top_iff _).2 h
      · obtain ⟨rest, rfl⟩ : ∃ rest, count = rest + 32 := ⟨count - 32, by omega⟩
        rw [bits_of_lt (by omega), show rest + 32 + 1 - 32 = rest + 1 by omega, pow_add] at h
        have habove : 2 ^ rest ≤ (bits (rest + 1) (twister.ahead 1)).1 := by
          have hword := (nextWord twister).1.toNat_lt
          omega
        have hlast := ih rest (by omega) habove
        rwa [ahead_ahead, show 1 + rest / 32 = (rest + 32) / 32 by omega] at hlast

/-! ## Candidates -/

/-- The twister after so many candidates for a number below the bound. -/
def afterCandidates (bound : Nat) (twister : Twister) (count : Nat) : Twister :=
  (fun twister ↦ (bits (bound.log2 + 1) twister).2)^[count] twister

/-- The candidates for a number below the bound, in order. -/
def candidate (bound : Nat) (twister : Twister) (n : Nat) : Nat :=
  (bits (bound.log2 + 1) (afterCandidates bound twister n)).1

/-- The candidate is the first one that is less than the bound. -/
structure IsFirst (bound : Nat) (twister : Twister) (n : Nat) : Prop where
  lt_bound : candidate bound twister n < bound
  rejected : ∀ earlier < n, bound ≤ candidate bound twister earlier

theorem afterCandidates_eq (bound : Nat) (twister : Twister) (count : Nat) :
    afterCandidates bound twister count = twister.ahead (count * (bound.log2 / 32 + 1)) := by
  induction count with
  | zero => rw [zero_mul]; rfl
  | succ count ih =>
      have hsucc : afterCandidates bound twister (count + 1) =
          (bits (bound.log2 + 1) (afterCandidates bound twister count)).2 :=
        Function.iterate_succ_apply' _ count twister
      rw [hsucc, bits_snd, ih, ahead_ahead, Nat.succ_mul]

theorem afterCandidates_afterCandidates (bound : Nat) (twister : Twister) (first second : Nat) :
    afterCandidates bound (afterCandidates bound twister first) second =
      afterCandidates bound twister (first + second) := by
  rw [afterCandidates, afterCandidates, afterCandidates, ← Function.iterate_add_apply,
    Nat.add_comm second]

/-- What is accepted is the first candidate below the bound, if there are attempts enough. -/
theorem IsFirst.accepted_eq (h : IsFirst bound twister n) {attempts : Nat} (hn : n < attempts) :
    accepted bound attempts twister =
      (candidate bound twister n, afterCandidates bound twister (n + 1)) := by
  induction attempts generalizing twister n with
  | zero => cases hn
  | succ attempts ih =>
      have hstep : accepted bound (attempts + 1) twister =
          if candidate bound twister 0 < bound then
            (candidate bound twister 0, afterCandidates bound twister 1)
          else accepted bound attempts (afterCandidates bound twister 1) := by
        show (if candidate bound twister 0 < bound then pure (candidate bound twister 0)
          else accepted bound attempts : StateM Twister Nat) (afterCandidates bound twister 1) = _
        split <;> rfl
      cases n with
      | zero => rw [hstep, if_pos h.lt_bound]
      | succ n =>
          rw [hstep, if_neg (Nat.not_lt.2 (h.rejected 0 n.succ_pos))]
          have hrest : IsFirst bound (afterCandidates bound twister 1) n :=
            ⟨h.lt_bound, fun earlier hearlier ↦ h.rejected (earlier + 1) (by omega)⟩
          exact ih hrest (by omega)

/-- Before the first candidate that is accepted no state comes back: it would lead to the same
candidate earlier. -/
theorem IsFirst.afterCandidates_injective (h : IsFirst bound twister n) :
    Function.Injective fun count : Fin (n + 1) ↦ afterCandidates bound twister count := by
  have hne (i j : Nat) (hij : i < j) (hj : j ≤ n) :
      afterCandidates bound twister i ≠ afterCandidates bound twister j := by
    intro heq
    have hsame : candidate bound twister (i + (n - j)) = candidate bound twister n := by
      have hlong : afterCandidates bound twister n =
          afterCandidates bound (afterCandidates bound twister j) (n - j) := by
        rw [afterCandidates_afterCandidates, Nat.add_sub_of_le hj]
      rw [candidate, candidate, hlong, ← heq, afterCandidates_afterCandidates]
    have hrejected := h.rejected (i + (n - j)) (by omega)
    have haccepted := h.lt_bound
    omega
  intro i j heq
  by_contra hdifferent
  rcases lt_or_gt_of_ne (Fin.val_ne_of_ne hdifferent) with hij | hji
  · exact hne i j hij (Nat.le_of_lt_succ j.isLt) heq
  · exact hne j i hji (Nat.le_of_lt_succ i.isLt) heq.symm

/-- The words of a twister, and its place. -/
def contents (twister : Twister) : (Fin 624 → Fin (2 ^ 32)) × Fin 624 :=
  (fun index ↦ (twister.words.get index).toFin, twister.place)

theorem contents_injective : contents.Injective := by
  rintro ⟨words, place⟩ ⟨words', place'⟩ heq
  obtain ⟨hwords, hplace⟩ := Prod.ext_iff.1 heq
  have hvector : words = words' := Vector.ext fun index hindex ↦
    UInt32.toFin_inj.1 (congrFun hwords ⟨index, hindex⟩)
  rw [hvector, show place = place' from hplace]

theorem card_tuples (width count places : Nat) :
    Fintype.card ((Fin count → Fin (2 ^ width)) × Fin places) = 2 ^ (width * count) * places := by
  simp only [Fintype.card_prod, Fintype.card_fun, Fintype.card_fin, Nat.pow_mul]

/-- With as many attempts as there are states, the first candidate to be accepted is accepted. -/
theorem IsFirst.lt_stateCount (h : IsFirst bound twister n) : n < stateCount := by
  have hstates := Fintype.card_le_of_injective _
    (contents_injective.comp h.afterCandidates_injective)
  rw [Fintype.card_fin] at hstates
  unfold stateCount
  exact hstates.trans (card_tuples 32 624 624).le

/-- A number below a bound is the first candidate below it, if there is any. -/
theorem IsFirst.below_eq (h : IsFirst bound twister n) :
    below bound twister = (candidate bound twister n, afterCandidates bound twister (n + 1)) :=
  h.accepted_eq h.lt_stateCount

/-! ## Rejection ends -/

theorem bit_tempered (word : UInt32) :
    bit (tempered word) 31 = (bit word 31 ^^ bit word 24 ^^ bit word 16 ^^ bit word 27) := by
  simp [bit, tempered]

/-- The uppermost bit of the word that is handed out is a parity of the word that is written. -/
theorem bit_tempered_xor (first second : UInt32) :
    bit (tempered (first ^^^ second)) 31 =
      (bit (tempered first) 31 ^^ bit (tempered second) 31) := by
  simp only [bit_tempered, bit_xor, Bool.xor_assoc, Bool.xor_left_comm, Bool.xor_comm]

/-- For every positive bound less than `2 ^ 14336` some candidate is accepted, and so there is a
first one, whatever the twister. -/
theorem exists_isFirst (hpos : 0 < bound) (hlt : bound < 2 ^ 14336) (twister : Twister) :
    ∃ n, IsFirst bound twister n := by
  suffices hsome : ∃ n, candidate bound twister n < bound by
    refine ⟨Nat.find hsome, Nat.find_spec hsome, fun earlier hearlier ↦ ?_⟩
    exact Nat.not_lt.1 (Nat.find_min hsome hearlier)
  by_contra hnone
  simp only [not_exists, Nat.not_lt] at hnone
  have hlog : bound.log2 < 14336 := (Nat.log2_lt hpos.ne').2 hlt
  obtain ⟨n, heven⟩ := twister.isStream_stream.exists_parity_eq_false
    (fun word ↦ bit (tempered word) 31) bit_tempered_xor
    (Nat.succ_pos (bound.log2 / 32)) (by omega) (bound.log2 / 32 + 624)
  have hodd := bit_top_of_le_bits ((Nat.log2_self_le hpos.ne').trans (hnone n))
  rw [afterCandidates_eq, ahead_ahead, nextWord_ahead, add_assoc] at hodd
  rw [hodd] at heven
  cases heven

end Twister

end DiceArithmetic
