import DiceArithmetic.Random.Sha512

/-!
# The Mersenne twister

The generator MT19937: a ring of 624 words of 32 bits, one of which is renewed with every word
handed out. A seed is a natural number; text and bytes are seeds by way of their digest. Numbers in
a range are drawn by taking just enough bits and rejecting what is too large; `below_lt` says that
what is drawn is always in the range.
-/

namespace DiceArithmetic

/-- The ring of words, and the place of the word to be renewed next. -/
structure Twister where
  words : Vector UInt32 624
  place : Fin 624
  deriving DecidableEq

namespace Twister

/-- Spreads the upper bits of a word over the lower ones. -/
def spread (word : UInt32) : UInt32 :=
  word ^^^ (word >>> 30)

/-- Writes a word that depends on the word before it, and moves on to the next place. The place
behind the last one is the second; the first then takes over the last word. -/
def plant (twister : Twister) (word : (here before : UInt32) → UInt32) : Twister :=
  let ⟨words, place⟩ := twister
  let words := words.set place (word words[place] words[place - 1])
  if place = Fin.last 623 then ⟨words.set 0 words[place], 1⟩ else ⟨words, place + 1⟩

/-- The ring that every seeding begins with. -/
def ground : Twister :=
  let filled : Twister := (List.range 623).foldl
    (fun twister step ↦
      twister.plant fun _ before ↦ 1812433253 * spread before + UInt32.ofNat (step + 1))
    ⟨Vector.replicate 624 19650218, 1⟩
  ⟨filled.words.set 0 19650218, 1⟩

/-- The ring seeded with these words: once around with every word of the key, then once around with
the places themselves. -/
def ofKey (key : Array UInt32) : Twister :=
  let keyed : Twister := (List.range (max 624 key.size)).foldl
    (fun twister step ↦
      let index := step % key.size
      twister.plant fun here before ↦
        (here ^^^ (spread before * 1664525)) + key.getD index 0 + UInt32.ofNat index)
    ground
  let settled : Twister := (List.range 623).foldl
    (fun twister _ ↦
      twister.plant fun here before ↦
        (here ^^^ (spread before * 1566083941)) - UInt32.ofNat twister.place.val)
    keyed
  ⟨settled.words.set 0 0x80000000, 0⟩

/-- The digits of a number to the base `2 ^ 32`, the least significant first; zero has one digit. -/
def digits (n : Nat) : List UInt32 :=
  UInt32.ofNat n :: if n < 2 ^ 32 then [] else digits (n / 2 ^ 32)

/-- The ring seeded with a natural number. -/
def ofNat (seed : Nat) : Twister :=
  ofKey (digits seed).toArray

/-- The ring seeded with the magnitude of an integer. -/
def ofInt (seed : Int) : Twister :=
  ofNat seed.natAbs

/-- The ring seeded with bytes: with the number that the bytes and their digest behind them make,
the most significant byte first. -/
def ofBytes (seed : List UInt8) : Twister :=
  ofNat ((seed ++ Sha512.digest seed).foldl (fun number byte ↦ number * 256 + byte.toNat) 0)

/-- The ring seeded with the UTF-8 bytes of a text. -/
def ofString (seed : String) : Twister :=
  ofBytes seed.toUTF8.toList

/-- Spreads the bits of a renewed word before it is handed out. -/
def tempered (word : UInt32) : UInt32 :=
  let word := word ^^^ (word >>> 11)
  let word := word ^^^ ((word <<< 7) &&& 0x9d2c5680)
  let word := word ^^^ ((word <<< 15) &&& 0xefc60000)
  word ^^^ (word >>> 18)

/-- Renews a word from the upper bit of itself, the lower bits of the word behind it, and the word
397 places further on, and hands it out. -/
def nextWord : StateM Twister UInt32 := fun ⟨words, place⟩ ↦
  let joined := (words[place] &&& 0x80000000) ||| (words[place + 1] &&& 0x7fffffff)
  let twisted := (joined >>> 1) ^^^ (if joined &&& 1 = 0 then 0 else 0x9908b0df)
  let renewed := words[place + 397] ^^^ twisted
  (tempered renewed, ⟨words.set place renewed, place + 1⟩)

/-- A number of this many bits, taken from as few words as hold them: the first word is the least
significant, and of the last one only the upper bits are used. -/
def bits (count : Nat) : StateM Twister Nat := do
  let word ← nextWord
  if count ≤ 32 then
    pure (word.toNat / 2 ^ (32 - count))
  else
    let above ← bits (count - 32)
    pure (above * 2 ^ 32 + word.toNat)

/-- How many states there are. After as many rejections in a row a state has come back, and with it
all that followed it. -/
@[irreducible] def stateCount : Nat :=
  2 ^ (32 * 624) * 624

/-- Takes numbers of as many bits as the bound has until one is less than the bound. After as many
rejections as there are attempts the number is zero. -/
def accepted (bound : Nat) : (attempts : Nat) → StateM Twister Nat
  | 0 => pure 0
  | attempts + 1 => do
      let candidate ← bits (bound.log2 + 1)
      if candidate < bound then pure candidate else accepted bound attempts

/-- A number below a positive bound. With as many attempts as there are states, only a ring that
would reject for ever runs out of them. -/
def below (bound : Nat) : StateM Twister Nat :=
  accepted bound stateCount

/-- What is accepted is below the bound, whatever the state. -/
theorem accepted_lt {bound : Nat} (h : 0 < bound) (attempts : Nat) (twister : Twister) :
    (accepted bound attempts twister).1 < bound := by
  induction attempts generalizing twister with
  | zero => exact h
  | succ attempts ih =>
      simp only [accepted, bind, StateT.bind]
      split
      split
      · assumption
      · exact ih _

/-- A number below a positive bound is below it, whatever the state. -/
theorem below_lt {bound : Nat} (h : 0 < bound) (twister : Twister) :
    (below bound twister).1 < bound :=
  accepted_lt h stateCount twister

end Twister

end DiceArithmetic
