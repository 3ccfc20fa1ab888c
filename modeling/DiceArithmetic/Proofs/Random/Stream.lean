import Mathlib.Dynamics.PeriodicPts.Lemmas
import DiceArithmetic.Random.Twister
import DiceArithmetic.Proofs.Random.Masks

/-!
# The stream of words

A twister writes one word after another. With those of its ring before them they are a stream, in
which every word is made from three of the 624 before it: `isStream_stream`. The exclusive or of two
streams is a stream, and a stream with a short period is zero: `IsStream.eq_zero_of_periodic`. So no
parity is odd in all the words that lie a short distance apart: `IsStream.exists_parity_eq_false`.
-/

namespace DiceArithmetic

namespace Twister

/-! ## Bits of words -/

/-- A bit of a word; place 31 is the most significant one. -/
def bit (word : UInt32) (place : Nat) : Bool :=
  word.toBitVec.getLsbD place

@[simp] theorem bit_xor (first second : UInt32) (place : Nat) :
    bit (first ^^^ second) place = (bit first place ^^ bit second place) := by
  simp [bit]

@[simp] theorem bit_zero (place : Nat) : bit 0 place = false := by
  simp [bit]

theorem bit_of_le (word : UInt32) {place : Nat} (h : 32 ≤ place) : bit word place = false :=
  BitVec.getLsbD_of_ge word.toBitVec place h

theorem bit_ext {first second : UInt32} (h : ∀ place < 32, bit first place = bit second place) :
    first = second :=
  UInt32.toBitVec_inj.1 (BitVec.eq_of_getLsbD_eq h)

theorem and_one_eq_zero_iff (word : UInt32) : word &&& 1 = 0 ↔ bit word 0 = false := by
  rw [bit, BitVec.getLsbD, UInt32.toNat_toBitVec, ← UInt32.toNat_inj, UInt32.toNat_and]
  simp [Nat.and_one_is_mod]

/-- The upper bit of a word with the lower bits of another one. -/
def joined (upper lower : UInt32) : UInt32 :=
  (upper &&& 0x80000000) ||| (lower &&& 0x7fffffff)

/-- A word moved down by a place, changed by a constant if a one falls off. -/
def twisted (word : UInt32) : UInt32 :=
  (word >>> 1) ^^^ (if word &&& 1 = 0 then 0 else 0x9908b0df)

theorem bit_joined (upper lower : UInt32) {place : Nat} (h : place < 32) :
    bit (joined upper lower) place = if place = 31 then bit upper 31 else bit lower place := by
  have hupper : ∀ place < 32, (0x80000000#32).getLsbD place = decide (place = 31) := by decide
  have hlower : ∀ place < 32, (0x7fffffff#32).getLsbD place = decide (place ≠ 31) := by decide
  have hbits : bit (joined upper lower) place =
      (bit upper place && (0x80000000#32).getLsbD place ||
        bit lower place && (0x7fffffff#32).getLsbD place) := by
    simp [bit, joined]
  rw [hbits, hupper place h, hlower place h]
  by_cases hlast : place = 31 <;> simp [hlast]

theorem bit_twisted (word : UInt32) (place : Nat) :
    bit (twisted word) place =
      (bit word (place + 1) ^^ (bit word 0 && bit 0x9908b0df place)) := by
  have hshifted : bit (word >>> 1) place = bit word (place + 1) := by
    simp [bit, Nat.add_comm]
  rw [twisted, bit_xor, hshifted]
  simp only [and_one_eq_zero_iff]
  cases bit word 0 <;> simp

/-- A bit of the word made from the first, the second and a later one. -/
theorem bit_twisted_joined (upper lower : UInt32) {place : Nat} (h : place < 32) :
    bit (twisted (joined upper lower)) place =
      ((if place = 30 then bit upper 31 else if place = 31 then false else bit lower (place + 1)) ^^
        (bit lower 0 && bit 0x9908b0df place)) := by
  rw [bit_twisted, bit_joined upper lower (by decide : 0 < 32), if_neg (by decide)]
  congr 1
  by_cases hlast : place = 31
  · subst hlast
    simp [bit_of_le]
  · rw [bit_joined upper lower (by omega), if_neg hlast]
    simp

theorem twisted_joined_xor (upper lower upper' lower' : UInt32) :
    twisted (joined (upper ^^^ upper') (lower ^^^ lower')) =
      twisted (joined upper lower) ^^^ twisted (joined upper' lower') := by
  refine bit_ext fun place hplace ↦ ?_
  rw [bit_xor]
  simp only [bit_twisted_joined _ _ hplace, bit_xor]
  split
  · grind
  · split <;> grind

/-! ## Streams -/

/-- Every word is made from the one 624 places before it, the one behind that, and the one 227
places before it. -/
def IsStream (words : Nat → UInt32) : Prop :=
  ∀ n, words (n + 624) = words (n + 397) ^^^ twisted (joined (words n) (words (n + 1)))

/-- Every word of a sequence compared with the one this much further on. -/
def compared (distance : Nat) (words : Nat → UInt32) (n : Nat) : UInt32 :=
  words (n + distance) ^^^ words n

namespace IsStream

variable {words others : Nat → UInt32} {period : Nat}

theorem shift (h : IsStream words) (distance : Nat) : IsStream fun n ↦ words (n + distance) := by
  intro n
  have hword := h (n + distance)
  simpa only [Nat.add_right_comm _ distance] using hword

theorem xor (h : IsStream words) (hothers : IsStream others) :
    IsStream fun n ↦ words n ^^^ others n := by
  intro n
  show words (n + 624) ^^^ others (n + 624) =
    (words (n + 397) ^^^ others (n + 397)) ^^^
      twisted (joined (words n ^^^ others n) (words (n + 1) ^^^ others (n + 1)))
  rw [h n, hothers n, twisted_joined_xor]
  ac_rfl

theorem compared (h : IsStream words) (distance : Nat) : IsStream (compared distance words) :=
  (h.shift distance).xor h

/-- Two streams that begin with the same 624 words are the same. -/
theorem ext (h : IsStream words) (hothers : IsStream others)
    (hbegin : ∀ n < 624, words n = others n) : words = others := by
  funext n
  induction n using Nat.strongRecOn with
  | ind n ih =>
      by_cases hlow : n < 624
      · exact hbegin n hlow
      · obtain ⟨before, rfl⟩ : ∃ before, n = before + 624 := ⟨n - 624, by omega⟩
        rw [h, hothers, ih before (by omega), ih (before + 1) (by omega),
          ih (before + 397) (by omega)]

/-! ## Streams with a short period -/

/-- What the lowest bits read for the bit that `twisted` moves to this place, if the mask is what
they read for the bit at this place, and the lower bits twisted are those of a word so much later. -/
def moved (mask place later : Nat) : Nat :=
  (mask <<< (623 + later)) ^^^ (mask <<< (396 + later)) ^^^
    ((if bit 0x9908b0df place then 1 else 0) <<< later)

theorem reading_moved (mask place later : Nat) (bits : Nat → Bool) (n : Nat) :
    reading (moved mask place later) bits n =
      (reading mask bits (n + (623 + later)) ^^ reading mask bits (n + (396 + later)) ^^
        (bits (n + later) && bit 0x9908b0df place)) := by
  have hconstant : reading (if bit 0x9908b0df place then 1 else 0) bits (n + later) =
      (bits (n + later) && bit 0x9908b0df place) := by
    cases bit 0x9908b0df place <;> simp
  rw [moved, reading_xor, reading_xor, reading_shiftLeft, reading_shiftLeft, reading_shiftLeft,
    hconstant]

/-- What the lowest bits of a periodic stream have to read for a bit further up. -/
def mask : (place : Nat) → Nat
  | 0 => 1
  | place + 1 => moved (mask place) place 0

/-- What they have to read for the uppermost bit. -/
def topMask : Nat :=
  moved (mask 30) 30 1

/-- A mask that kills them. -/
def killer : Nat :=
  moved topMask 31 1

/-- In a periodic stream there is a word before the first one. -/
theorem exists_before (h : IsStream words) (hperiod : words.Periodic period) (hpos : 0 < period)
    (n : Nat) :
    ∃ upper, words (n + 623) = words (n + 396) ^^^ twisted (joined upper (words n)) := by
  obtain ⟨before, rfl⟩ : ∃ before, period = before + 1 := ⟨period - 1, by omega⟩
  have hword := h (n + before)
  rw [show n + before + 624 = n + 623 + (before + 1) by omega,
    show n + before + 397 = n + 396 + (before + 1) by omega, add_assoc n before 1,
    hperiod, hperiod, hperiod] at hword
  exact ⟨_, hword⟩

/-- Solves for the bit that is moved. -/
theorem moved_eq {made later moved constant : Bool} (h : made = (later ^^ (moved ^^ constant))) :
    moved = (made ^^ later ^^ constant) := by
  subst h
  cases later <;> cases moved <;> cases constant <;> rfl

/-- Every bit but the uppermost one of a word of a periodic stream is read from the lowest bits. -/
theorem bit_eq_reading (h : IsStream words) (hperiod : words.Periodic period) (hpos : 0 < period)
    {place : Nat} (hplace : place ≤ 30) (n : Nat) :
    bit (words n) place = reading (mask place) (fun n ↦ bit (words n) 0) n := by
  induction place generalizing n with
  | zero => rw [mask, reading_one]
  | succ place ih =>
      obtain ⟨upper, hword⟩ := h.exists_before hperiod hpos n
      have hbits := congrArg (bit · place) hword
      simp only [bit_xor, bit_twisted_joined upper (words n) (show place < 32 by omega)] at hbits
      rw [if_neg (by omega), if_neg (by omega), ih (by omega), ih (by omega)] at hbits
      rw [mask, reading_moved]
      exact moved_eq hbits

/-- The uppermost bit of a word of a periodic stream is read from the lowest bits. -/
theorem bit_top_eq_reading (h : IsStream words) (hperiod : words.Periodic period)
    (hpos : 0 < period) (n : Nat) :
    bit (words n) 31 = reading topMask (fun n ↦ bit (words n) 0) n := by
  have hbits := congrArg (bit · 30) (h n)
  simp only [bit_xor, bit_twisted_joined _ _ (show 30 < 32 by decide)] at hbits
  rw [if_true, h.bit_eq_reading hperiod hpos le_rfl, h.bit_eq_reading hperiod hpos le_rfl]
    at hbits
  rw [topMask, reading_moved]
  exact moved_eq hbits

/-- The lowest bits of a periodic stream are killed, since nothing is moved to the uppermost bit. -/
theorem kills_killer (h : IsStream words) (hperiod : words.Periodic period) (hpos : 0 < period) :
    Kills killer fun n ↦ bit (words n) 0 := by
  intro n
  have hbits := congrArg (bit · 31) (h n)
  simp only [bit_xor, bit_twisted_joined _ _ (show 31 < 32 by decide)] at hbits
  rw [if_neg (by decide), if_true, h.bit_top_eq_reading hperiod hpos,
    h.bit_top_eq_reading hperiod hpos] at hbits
  rw [killer, reading_moved]
  exact (moved_eq hbits).symm

/-- What kills the lowest bits of a stream with an odd period up to 447 is coprime. The killer has
almost twenty thousand bits; folded, no more than the period. -/
theorem coprime_killer :
    ∀ half < 224, coprime (2 * (2 * half + 1)) ((1 <<< (2 * half + 1)) ^^^ 1)
      (folded (2 * half + 1) (15 - (2 * half + 1).log2) killer) := by
  decide +kernel

/-- A stream with an odd period up to 447 is zero: its lowest bits are killed by coprime masks, and
all others are read from them. -/
theorem eq_zero_of_odd (h : IsStream words) {half : Nat} (hhalf : half < 224)
    (hperiod : words.Periodic (2 * half + 1)) (n : Nat) : words n = 0 := by
  have hpos : 0 < 2 * half + 1 := Nat.succ_pos _
  have hbits : Function.Periodic (fun n ↦ bit (words n) 0) (2 * half + 1) := fun n ↦
    congrArg (bit · 0) (hperiod n)
  have hfolded : Kills (folded (2 * half + 1) (15 - (2 * half + 1).log2) killer)
      fun n ↦ bit (words n) 0 := fun n ↦ by
    rw [reading_folded hbits]
    exact h.kills_killer hperiod hpos n
  have hodd : ((1 <<< (2 * half + 1)) ^^^ 1) % 2 = 1 := by
    rw [Nat.xor_mod_two_eq, Nat.shiftLeft_succ]
    omega
  have hlow : ∀ n, bit (words n) 0 = false :=
    (kills_of_periodic hbits).eq_false_of_coprime hbits hpos hfolded hodd
      (coprime_killer half hhalf)
  refine bit_ext fun place hplace ↦ ?_
  rw [bit_zero]
  by_cases htop : place = 31
  · rw [htop, h.bit_top_eq_reading hperiod hpos]
    exact reading_eq_false hlow _ _
  · rw [h.bit_eq_reading hperiod hpos (by omega)]
    exact reading_eq_false hlow _ _

/-- A stream with a period up to 448 is zero. With an even period, comparing it over half the period
makes a stream with half the period. -/
theorem eq_zero_of_periodic (h : IsStream words) (hpos : 0 < period) (hle : period ≤ 448)
    (hperiod : words.Periodic period) (n : Nat) : words n = 0 := by
  induction period using Nat.strongRecOn generalizing words n with
  | ind period ih =>
      obtain ⟨half, hhalf⟩ := Nat.even_or_odd' period
      rcases hhalf with rfl | rfl
      · have hcompared : (Twister.compared half words).Periodic half := by
          intro n
          rw [Twister.compared, Twister.compared, add_assoc, ← two_mul, hperiod]
          exact UInt32.xor_comm _ _
        refine ih half (by omega) h (by omega) (by omega) (fun n ↦ ?_) n
        have hzero := ih half (by omega) (h.compared half) (by omega) (by omega) hcompared n
        exact UInt32.xor_eq_zero_iff.1 hzero
      · exact h.eq_zero_of_odd (by omega) hperiod n

end IsStream

/-! ## What streams read in steps -/

/-- There are finitely many streams, since there are finitely many beginnings. -/
instance : Finite {words // IsStream words} :=
  Finite.of_injective (fun stream (n : Fin 624) ↦ (stream.1 n).toFin) fun first second heq ↦
    Subtype.ext <| first.2.ext second.2 fun n hn ↦ UInt32.toFin_inj.1 (congrFun heq ⟨n, hn⟩)

/-- Comparing makes a stream of a stream. -/
def comparing (distance : Nat) (stream : {words // IsStream words}) : {words // IsStream words} :=
  ⟨compared distance stream.1, stream.2.compared distance⟩

/-- Two streams that are the same when compared over a short distance differ by a stream with that
period. -/
theorem comparing_injective {distance : Nat} (hpos : 0 < distance) (hle : distance ≤ 448) :
    (comparing distance).Injective := by
  intro first second heq
  refine Subtype.ext (funext fun n ↦ UInt32.xor_eq_zero_iff.1 ?_)
  refine (first.2.xor second.2).eq_zero_of_periodic hpos hle (fun n ↦ ?_) n
  have hcompared : first.1 (n + distance) ^^^ first.1 n = second.1 (n + distance) ^^^ second.1 n :=
    congrFun (congrArg Subtype.val heq) n
  have hzero := UInt32.xor_eq_zero_iff.2 hcompared
  show first.1 (n + distance) ^^^ second.1 (n + distance) = first.1 n ^^^ second.1 n
  refine UInt32.xor_eq_zero_iff.1 ?_
  rw [← hzero]
  ac_rfl

/-- A parity cannot be odd in all the words that lie a short distance apart. If it were, it would be
even in those of every stream that comparing leads to, and one of them is the stream itself. -/
theorem IsStream.exists_parity_eq_false {words : Nat → UInt32} (h : IsStream words)
    (parity : UInt32 → Bool)
    (hparity : ∀ first second, parity (first ^^^ second) = (parity first ^^ parity second))
    {distance : Nat} (hpos : 0 < distance) (hle : distance ≤ 448) (start : Nat) :
    ∃ n, parity (words (n * distance + start)) = false := by
  by_contra hodd
  simp only [not_exists, Bool.not_eq_false] at hodd
  have heven (count n : Nat) :
      parity (((comparing distance)^[count + 1] ⟨words, h⟩).1 (n * distance + start)) = false := by
    induction count generalizing n with
    | zero =>
        show parity (words (n * distance + start + distance) ^^^ words (n * distance + start)) =
          false
        rw [Nat.add_right_comm, ← Nat.succ_mul, hparity, hodd, hodd]
        rfl
    | succ count ih =>
        rw [Function.iterate_succ_apply']
        show parity (_ ^^^ _) = false
        rw [Nat.add_right_comm, ← Nat.succ_mul, hparity, ih, ih]
        rfl
  obtain ⟨count, hcount, hback⟩ :=
    (comparing_injective hpos hle).mem_periodicPts (⟨words, h⟩ : {words // IsStream words})
  obtain ⟨before, rfl⟩ : ∃ before, count = before + 1 := ⟨count - 1, by omega⟩
  have hfalse := heven before 0
  rw [hback.eq, hodd] at hfalse
  cases hfalse

/-! ## The stream of a twister -/

/-- A word of the ring, counted from the place on. -/
def wordAt (twister : Twister) (index : Fin 624) : UInt32 :=
  twister.words.get (twister.place + index)

/-- The word that is written next. -/
def renewed (twister : Twister) : UInt32 :=
  (nextWord twister).2.words.get twister.place

theorem renewed_eq (twister : Twister) :
    twister.renewed =
      twister.wordAt 397 ^^^ twisted (joined (twister.wordAt 0) (twister.wordAt 1)) := by
  rw [wordAt, wordAt, wordAt, add_zero]
  exact Vector.getElem_set_self _

theorem nextWord_eq (twister : Twister) :
    nextWord twister = (tempered twister.renewed,
      ⟨twister.words.set twister.place twister.renewed, twister.place + 1⟩) := by
  rw [renewed_eq, wordAt, wordAt, wordAt, add_zero]
  rfl

/-- The twister after so many words. -/
def ahead (twister : Twister) (count : Nat) : Twister :=
  (fun twister ↦ (nextWord twister).2)^[count] twister

theorem ahead_ahead (twister : Twister) (first second : Nat) :
    (twister.ahead first).ahead second = twister.ahead (first + second) := by
  rw [ahead, ahead, ahead, ← Function.iterate_add_apply, add_comm]

theorem ahead_one (twister : Twister) : twister.ahead 1 = (nextWord twister).2 :=
  rfl

/-- The words of the ring, from the place on, and behind them those that the twister writes. -/
def stream (twister : Twister) (n : Nat) : UInt32 :=
  (twister.ahead n).words.get (twister.ahead n).place

theorem get_set (words : Vector UInt32 624) (place index : Fin 624) (word : UInt32) :
    (words.set place word place.isLt).get index =
      if place = index then word else words.get index := by
  simp only [← Fin.val_inj]
  exact Vector.getElem_set place.isLt index.isLt

theorem wordAt_ahead_one (twister : Twister) (index : Fin 624) :
    (twister.ahead 1).wordAt index =
      if index + 1 = 0 then twister.renewed else twister.wordAt (index + 1) := by
  have hplace : twister.place + 1 + index = twister.place + (index + 1) := by
    rw [add_assoc, add_comm 1]
  rw [ahead_one, nextWord_eq, wordAt, wordAt, hplace, get_set]
  simp only [left_eq_add]

/-- The ring holds the next words of the stream. -/
theorem wordAt_ahead (twister : Twister) {index : Nat} (h : index < 624) (n : Nat) :
    (twister.ahead n).wordAt ⟨index, h⟩ = twister.stream (n + index) := by
  induction index generalizing n with
  | zero => exact congrArg (twister.ahead n).words.get (add_zero _)
  | succ index ih =>
      have hsucc : (⟨index, by omega⟩ : Fin 624) + 1 = ⟨index + 1, h⟩ :=
        Fin.ext (Nat.mod_eq_of_lt h)
      have hstep := ih (by omega) (n + 1)
      rw [← ahead_ahead, wordAt_ahead_one, hsucc, if_neg (by simp)] at hstep
      rw [hstep, Nat.add_right_comm, add_assoc]

/-- The word that is written next is 624 places on in the stream. -/
theorem renewed_ahead (twister : Twister) (n : Nat) :
    (twister.ahead n).renewed = twister.stream (n + 624) := by
  have hlast := twister.wordAt_ahead (show 623 < 624 by decide) (n + 1)
  rw [← ahead_ahead, wordAt_ahead_one, if_pos (by decide)] at hlast
  exact hlast

/-- What a twister writes is a stream. -/
theorem isStream_stream (twister : Twister) : IsStream twister.stream := by
  intro n
  have hword {index : Nat} (hindex : index < 624) := twister.wordAt_ahead hindex n
  rw [← renewed_ahead, renewed_eq, ← hword (show 397 < 624 by decide),
    ← hword (show 1 < 624 by decide), ← Nat.add_zero n, ← hword (show 0 < 624 by decide)]
  rfl

/-- The word handed out after so many others. -/
theorem nextWord_ahead (twister : Twister) (n : Nat) :
    (nextWord (twister.ahead n)).1 = tempered (twister.stream (n + 624)) := by
  rw [nextWord_eq, renewed_ahead]

end Twister

end DiceArithmetic
