import DiceArithmetic.Binary64

/-!
# The shortest decimal text of a binary64 value

The text of a finite value has the fewest significant digits that lie nearer to the value than to
any other, or as near and the value is even; of several such decimals it is the one nearest to the
value. All comparisons are made between natural numbers, without rounding.
-/

namespace DiceArithmetic.Binary64

/-- The positive rationals around a positive value that round to it: from `low / denominator` to
`high / denominator`, both ends included if the significand is even, the value itself being
`middle / denominator`. -/
structure Neighbourhood where
  low : Nat
  middle : Nat
  high : Nat
  denominator : Nat
  closed : Bool

/-- The neighbourhood of `significand * 2 ^ exponent`. Its ends lie halfway to the next values, and
the value below a power of two is only half as far as the one above, save at the bottom of the
range. -/
def neighbourhood (significand : Nat) (exponent : Int) : Neighbourhood :=
  let scale := 2 ^ (exponent - 2).toNat
  let below := if significand = 2 ^ 52 ∧ -1074 < exponent then 1 else 2
  { low := (4 * significand - below) * scale
    middle := 4 * significand * scale
    high := (4 * significand + 2) * scale
    denominator := 2 ^ (2 - exponent).toNat
    closed := significand % 2 = 0 }

/-- The rational `numerator / denominator` is less than ten to this power, and not less than ten to
the power below it. -/
def decimalMagnitude (numerator denominator : Nat) : Int :=
  if denominator ≤ numerator then (Nat.toDigits 10 (numerator / denominator)).length
  else 1 - (Nat.toDigits 10 ((denominator - 1) / numerator)).length

/-- A decimal `digits * 10 ^ exponent`. -/
structure Decimal where
  digits : Nat
  exponent : Int

/-- Whether a decimal rounds to the value whose neighbourhood this is. -/
def Neighbourhood.contains (around : Neighbourhood) (decimal : Decimal) : Bool :=
  let here := decimal.digits * 10 ^ decimal.exponent.toNat * around.denominator
  let unit := 10 ^ (-decimal.exponent).toNat
  if around.closed then around.low * unit ≤ here ∧ here ≤ around.high * unit
  else around.low * unit < here ∧ here < around.high * unit

/-- The decimals of the given exponent next to the middle that round to the value, the nearer of two
first and, of two equally near, the even one. -/
def Neighbourhood.candidates (around : Neighbourhood) (exponent : Int) : List Decimal :=
  let unit := 10 ^ exponent.toNat * around.denominator
  let middle := around.middle * 10 ^ (-exponent).toNat
  let below := middle / unit
  let remainder := middle % unit
  let downFirst := 2 * remainder < unit ∨ 2 * remainder = unit ∧ below % 2 = 0
  let both := if downFirst then [below, below + 1] else [below + 1, below]
  (both.map fun digits ↦ ⟨digits, exponent⟩).filter around.contains

/-- The decimal of the fewest digits that rounds to the value, looked for with up to seventeen
digits, which always suffice. -/
def Neighbourhood.shortest (around : Neighbourhood) : Decimal :=
  let magnitude := decimalMagnitude around.middle around.denominator
  let found := (List.range 17).findSome? fun (count : Nat) ↦
    (around.candidates (magnitude - (count + 1))).head?
  found.getD ⟨0, 0⟩

/-- The exponents of the leading digit from which on, and below which, a value is written without an
exponent. -/
def positional (leading : Int) : Bool :=
  -4 ≤ leading ∧ leading < 16

/-- The text of a positive decimal. A value written without an exponent has a point and a digit on
either side of it; an exponent has a sign and at least two digits. -/
def Decimal.text (decimal : Decimal) : String :=
  let all := Nat.toDigits 10 decimal.digits
  let digits := (all.reverse.dropWhile (· = '0')).reverse
  let leading := decimal.exponent + all.length - 1
  if positional leading then
    let whole := (leading + 1).toNat
    let zeros := List.replicate (-leading).toNat '0'
    let before := zeros.take 1 ++ digits.take whole ++ List.replicate (whole - digits.length) '0'
    let behind := zeros.drop 1 ++ digits.drop whole
    String.ofList (before ++ ['.'] ++ if behind = [] then ['0'] else behind)
  else
    let point := if digits.length = 1 then [] else ['.']
    let power := Nat.toDigits 10 leading.natAbs
    let sign := if leading < 0 then '-' else '+'
    String.ofList (digits.take 1 ++ point ++ digits.drop 1 ++ ['e', sign] ++
      List.replicate (2 - power.length) '0' ++ power)

/-- The text of a value. -/
def text (value : Binary64) : String :=
  match value.meaning with
  | .notANumber => "nan"
  | .infinite negative => if negative then "-inf" else "inf"
  | .finite negative significand exponent =>
      (if negative then "-" else "") ++
        if significand = 0 then "0.0" else (neighbourhood significand exponent).shortest.text

end DiceArithmetic.Binary64
