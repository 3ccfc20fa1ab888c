/-!
# Blank characters

The characters with the property White_Space, which may stand around a setting's value.
-/

namespace DiceArithmetic.Text

/-- The code points of blank characters, as ascending ranges with both ends included. -/
def blankRanges : List (Nat × Nat) :=
  [(0x9, 0xd), (0x20, 0x20), (0x85, 0x85), (0xa0, 0xa0), (0x1680, 0x1680), (0x2000, 0x200a),
    (0x2028, 0x2029), (0x202f, 0x202f), (0x205f, 0x205f), (0x3000, 0x3000)]

/-- Whether a character is blank. -/
def isBlank (character : Char) : Bool :=
  blankRanges.any fun (first, last) ↦ first ≤ character.toNat && character.toNat ≤ last

/-- A text without the blank characters at either end. -/
def trimmed (text : List Char) : List Char :=
  ((text.dropWhile isBlank).reverse.dropWhile isBlank).reverse

end DiceArithmetic.Text
