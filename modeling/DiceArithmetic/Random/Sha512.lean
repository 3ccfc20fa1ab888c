import DiceArithmetic.Instances

/-!
# The hash function SHA-512

The message is padded to whole blocks of sixteen words of 64 bits; each block is mixed into eight
registers in eighty rounds; the registers are the digest.
-/

namespace DiceArithmetic.Sha512

/-- The eight registers. -/
structure Registers where
  a : UInt64
  b : UInt64
  c : UInt64
  d : UInt64
  e : UInt64
  f : UInt64
  g : UInt64
  h : UInt64
  deriving DecidableEq, Repr

/-- The first 64 bits behind the point of the square roots of the first eight primes. -/
def initial : Registers :=
  ⟨0x6a09e667f3bcc908, 0xbb67ae8584caa73b, 0x3c6ef372fe94f82b, 0xa54ff53a5f1d36f1,
    0x510e527fade682d1, 0x9b05688c2b3e6c1f, 0x1f83d9abfb41bd6b, 0x5be0cd19137e2179⟩

/-- The first 64 bits behind the point of the cube roots of the first eighty primes, one for each
round. -/
def roundConstants : List UInt64 :=
  [0x428a2f98d728ae22, 0x7137449123ef65cd, 0xb5c0fbcfec4d3b2f, 0xe9b5dba58189dbbc,
    0x3956c25bf348b538, 0x59f111f1b605d019, 0x923f82a4af194f9b, 0xab1c5ed5da6d8118,
    0xd807aa98a3030242, 0x12835b0145706fbe, 0x243185be4ee4b28c, 0x550c7dc3d5ffb4e2,
    0x72be5d74f27b896f, 0x80deb1fe3b1696b1, 0x9bdc06a725c71235, 0xc19bf174cf692694,
    0xe49b69c19ef14ad2, 0xefbe4786384f25e3, 0x0fc19dc68b8cd5b5, 0x240ca1cc77ac9c65,
    0x2de92c6f592b0275, 0x4a7484aa6ea6e483, 0x5cb0a9dcbd41fbd4, 0x76f988da831153b5,
    0x983e5152ee66dfab, 0xa831c66d2db43210, 0xb00327c898fb213f, 0xbf597fc7beef0ee4,
    0xc6e00bf33da88fc2, 0xd5a79147930aa725, 0x06ca6351e003826f, 0x142929670a0e6e70,
    0x27b70a8546d22ffc, 0x2e1b21385c26c926, 0x4d2c6dfc5ac42aed, 0x53380d139d95b3df,
    0x650a73548baf63de, 0x766a0abb3c77b2a8, 0x81c2c92e47edaee6, 0x92722c851482353b,
    0xa2bfe8a14cf10364, 0xa81a664bbc423001, 0xc24b8b70d0f89791, 0xc76c51a30654be30,
    0xd192e819d6ef5218, 0xd69906245565a910, 0xf40e35855771202a, 0x106aa07032bbd1b8,
    0x19a4c116b8d2d0c8, 0x1e376c085141ab53, 0x2748774cdf8eeb99, 0x34b0bcb5e19b48a8,
    0x391c0cb3c5c95a63, 0x4ed8aa4ae3418acb, 0x5b9cca4f7763e373, 0x682e6ff3d6b2b8a3,
    0x748f82ee5defb2fc, 0x78a5636f43172f60, 0x84c87814a1f0ab72, 0x8cc702081a6439ec,
    0x90befffa23631e28, 0xa4506cebde82bde9, 0xbef9a3f7b2c67915, 0xc67178f2e372532b,
    0xca273eceea26619c, 0xd186b8c721c0c207, 0xeada7dd6cde0eb1e, 0xf57d4f7fee6ed178,
    0x06f067aa72176fba, 0x0a637dc5a2c898a6, 0x113f9804bef90dae, 0x1b710b35131c471b,
    0x28db77f523047d84, 0x32caab7b40c72493, 0x3c9ebe0a15c9bebc, 0x431d67c49c100d4c,
    0x4cc5d4becb3e42b6, 0x597f299cfc657e2a, 0x5fcb6fab3ad6faec, 0x6c44198c4a475817]

/-- Turns a word to the right, by at least one place and less than 64. -/
def rotated (word places : UInt64) : UInt64 :=
  (word >>> places) ||| (word <<< (64 - places))

/-- The word that follows these in a schedule, given from the latest to the earliest. -/
def nextScheduled (latest : List UInt64) : UInt64 :=
  let near := latest.getD 1 0
  let far := latest.getD 14 0
  (rotated near 19 ^^^ rotated near 61 ^^^ (near >>> 6)) + latest.getD 6 0 +
    (rotated far 1 ^^^ rotated far 8 ^^^ (far >>> 7)) + latest.getD 15 0

/-- The words of the eighty rounds: those of the block and sixty-four more. -/
def schedule (block : List UInt64) : List UInt64 :=
  (Nat.repeat (fun latest ↦ nextScheduled latest :: latest) 64 block.reverse).reverse

/-- One round. -/
def Registers.round (registers : Registers) (constant word : UInt64) : Registers :=
  let ⟨a, b, c, d, e, f, g, h⟩ := registers
  let chosen := (e &&& f) ^^^ (~~~e &&& g)
  let majority := (a &&& b) ^^^ (a &&& c) ^^^ (b &&& c)
  let first := h + (rotated e 14 ^^^ rotated e 18 ^^^ rotated e 41) + chosen + constant + word
  let second := (rotated a 28 ^^^ rotated a 34 ^^^ rotated a 39) + majority
  ⟨first + second, a, b, c, d + first, e, f, g⟩

/-- Mixes one block into the registers. -/
def Registers.absorb (registers : Registers) (block : List UInt64) : Registers :=
  let mixed := (roundConstants.zip (schedule block)).foldl
    (fun current (constant, word) ↦ current.round constant word) registers
  ⟨registers.a + mixed.a, registers.b + mixed.b, registers.c + mixed.c, registers.d + mixed.d,
    registers.e + mixed.e, registers.f + mixed.f, registers.g + mixed.g, registers.h + mixed.h⟩

/-- A number in this many bytes, the most significant first. -/
def bigEndian (count value : Nat) : List UInt8 :=
  (List.range count).reverse.map fun place ↦ UInt8.ofNat (value / 256 ^ place)

/-- The words of a message, eight bytes each, the most significant first. -/
def words : List UInt8 → List UInt64
  | b₀ :: b₁ :: b₂ :: b₃ :: b₄ :: b₅ :: b₆ :: b₇ :: rest =>
      [b₀, b₁, b₂, b₃, b₄, b₅, b₆, b₇].foldl (fun word byte ↦ (word <<< 8) ||| byte.toUInt64) 0 ::
        words rest
  | _ => []

/-- A message with a one bit, as many zero bits as needed, and its length in bits behind it, which
makes whole blocks of 128 bytes. -/
def padded (message : List UInt8) : List UInt8 :=
  message ++ [0x80] ++ List.replicate ((239 - message.length % 128) % 128) 0 ++
    bigEndian 16 (8 * message.length)

/-- Cuts words into blocks of sixteen. -/
def blocks (words : List UInt64) : List (List UInt64) :=
  if words = [] then [] else words.take 16 :: blocks (words.drop 16)
  termination_by words.length
  decreasing_by have := List.length_pos_iff.2 ‹_›; simp only [List.length_drop]; omega

/-- The digest of a message, sixty-four bytes. -/
def digest (message : List UInt8) : List UInt8 :=
  let final := (blocks (words (padded message))).foldl Registers.absorb initial
  [final.a, final.b, final.c, final.d, final.e, final.f, final.g, final.h].flatMap
    fun register ↦ bigEndian 8 register.toNat

end DiceArithmetic.Sha512
