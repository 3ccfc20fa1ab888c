import DiceArithmetic.Instances
import DiceArithmetic.Node.Reading

/-!
# Decimal digits and their value

A number is written in decimal without leading zeros, and its text has as many digits as its size
calls for. Reading the text gives the number back, and writing what digits are read as gives these
digits back without their leading zeros; see `toString_decimalValue`.
-/

namespace DiceArithmetic.Reading

/-- Digits have a value below the power of ten of their number. -/
theorem ofDigitChars_lt {digits : List Char} (h : ∀ digit ∈ digits, digit.isDigit) (value : Nat) :
    Nat.ofDigitChars 10 digits value < (value + 1) * 10 ^ digits.length := by
  induction digits generalizing value with
  | nil => simp
  | cons digit rest ih =>
      obtain ⟨hdigit, hrest⟩ := List.forall_mem_cons.1 h
      have hsmall : digit.toNat - '0'.toNat < 10 := by
        simp only [Char.isDigit_iff_toNat, Char.reduceToNat] at hdigit ⊢
        omega
      calc Nat.ofDigitChars 10 (digit :: rest) value
          = Nat.ofDigitChars 10 rest (10 * value + (digit.toNat - '0'.toNat)) :=
            Nat.ofDigitChars_cons
        _ < (10 * value + (digit.toNat - '0'.toNat) + 1) * 10 ^ rest.length := ih hrest _
        _ ≤ ((value + 1) * 10) * 10 ^ rest.length := Nat.mul_le_mul_right _ (by omega)
        _ = (value + 1) * 10 ^ (digit :: rest).length := by
            rw [Nat.mul_assoc, List.length_cons, Nat.pow_succ']

theorem decimalValue_lt {digits : String} (h : ∀ digit ∈ digits.toList, digit.isDigit) :
    decimalValue digits < 10 ^ digits.length := by
  rw [decimalValue, ← String.length_toList]
  simpa using ofDigitChars_lt h 0

/-- A number is read back from its text. -/
theorem decimalValue_toString (value : Nat) : decimalValue (toString value) = value := by
  rw [decimalValue, Nat.toString_eq_repr, Nat.toList_repr, Nat.ofDigitChars_ten_toDigits]

/-- The text of a number consists of digits. -/
theorem isDigit_of_mem_toString {value : Nat} :
    ∀ digit ∈ (toString value).toList, digit.isDigit := by
  intro digit hmem
  rw [Nat.toString_eq_repr, Nat.toList_repr] at hmem
  exact Nat.isDigit_of_mem_toDigits (by decide) (by decide) hmem

/-- A number has at most so many digits if it is below the power of ten. -/
theorem length_toString_le {value count : Nat} (hcount : 0 < count) (h : value < 10 ^ count) :
    (toString value).length ≤ count := by
  rw [Nat.toString_eq_repr, ← String.length_toList, Nat.toList_repr]
  exact (Nat.length_toDigits_le_iff (by decide) hcount).2 h

/-- An integer is written as the digits of its magnitude, behind a minus sign if it is negative. -/
theorem toList_toString (value : Int) :
    (toString value).toList =
      if value < 0 then '-' :: Nat.toDigits 10 value.natAbs else Nat.toDigits 10 value.natAbs := by
  cases value with
  | ofNat magnitude =>
      show (toString magnitude).toList = _
      rw [Nat.toString_eq_repr, Nat.toList_repr, if_neg (by simp)]
      rfl
  | negSucc magnitude =>
      show ("-" ++ toString (magnitude + 1)).toList = _
      rw [String.toList_append, Nat.toString_eq_repr, Nat.toList_repr,
        if_pos (Int.negSucc_lt_zero magnitude)]
      rfl

/-- Digits without the zeros in front of them. Of zeros alone the last one stays. -/
def withoutLeadingZeros (digits : List Char) : List Char :=
  match digits.dropWhile (· = '0') with
  | [] => ['0']
  | kept => kept

theorem withoutLeadingZeros_zero (digits : List Char) :
    withoutLeadingZeros ('0' :: digits) = withoutLeadingZeros digits :=
  rfl

theorem withoutLeadingZeros_of_ne {digit : Char} (h : digit ≠ '0') (digits : List Char) :
    withoutLeadingZeros (digit :: digits) = digit :: digits := by
  rw [withoutLeadingZeros, List.dropWhile_cons_of_neg (by simpa using h)]

/-- What stays is a digit if all were. -/
theorem isDigit_of_mem_withoutLeadingZeros {digits : List Char}
    (h : ∀ digit ∈ digits, digit.isDigit) :
    ∀ digit ∈ withoutLeadingZeros digits, digit.isDigit := by
  intro digit hmem
  unfold withoutLeadingZeros at hmem
  split at hmem
  next =>
      obtain rfl := List.mem_singleton.1 hmem
      rfl
  next => exact h digit ((List.dropWhile_sublist _).mem hmem)

theorem withoutLeadingZeros_ne_nil (digits : List Char) : withoutLeadingZeros digits ≠ [] := by
  unfold withoutLeadingZeros
  split
  next => exact List.cons_ne_nil _ _
  next hkept => exact hkept

/-- A digit is written as its value is. -/
theorem toDigits_of_isDigit {digit : Char} (h : digit.isDigit) :
    digit.toNat - '0'.toNat < 10 ∧ Nat.toDigits 10 (digit.toNat - '0'.toNat) = [digit] := by
  simp only [Char.isDigit_iff_toNat, Char.reduceToNat] at h ⊢
  have hsmall : digit.toNat - 48 < 10 := by omega
  have hdigit : (digit.toNat - 48).digitChar = digit := by
    refine Char.toNat_inj.1 ?_
    rw [Nat.toNat_digitChar_of_lt_ten hsmall]
    omega
  exact ⟨hsmall, by rw [Nat.toDigits_of_lt_base hsmall, hdigit]⟩

/-- Digits behind a positive number are written behind it. -/
theorem toDigits_ofDigitChars_of_pos {digits : List Char} (h : ∀ digit ∈ digits, digit.isDigit)
    {value : Nat} (hpositive : 0 < value) :
    Nat.toDigits 10 (Nat.ofDigitChars 10 digits value) = Nat.toDigits 10 value ++ digits := by
  induction digits generalizing value with
  | nil => simp
  | cons digit rest ih =>
      obtain ⟨hdigit, hrest⟩ := List.forall_mem_cons.1 h
      obtain ⟨hsmall, hwritten⟩ := toDigits_of_isDigit hdigit
      calc Nat.toDigits 10 (Nat.ofDigitChars 10 (digit :: rest) value)
          = Nat.toDigits 10 (10 * value + (digit.toNat - '0'.toNat)) ++ rest := by
            rw [Nat.ofDigitChars_cons, ih hrest (by omega)]
        _ = (Nat.toDigits 10 value ++ [digit]) ++ rest := by
            rw [← Nat.toDigits_append_toDigits (by decide) hpositive hsmall, hwritten]
        _ = Nat.toDigits 10 value ++ digit :: rest := List.append_cons .. |>.symm

/-- Digits are written again as they are, but without leading zeros. -/
theorem toDigits_ofDigitChars {digits : List Char} (h : ∀ digit ∈ digits, digit.isDigit) :
    Nat.toDigits 10 (Nat.ofDigitChars 10 digits 0) = withoutLeadingZeros digits := by
  induction digits with
  | nil => rfl
  | cons digit rest ih =>
      obtain ⟨hdigit, hrest⟩ := List.forall_mem_cons.1 h
      by_cases hzero : digit = '0'
      · rw [hzero, withoutLeadingZeros_zero, ← ih hrest, Nat.ofDigitChars_cons]
        rfl
      · obtain ⟨hsmall, hwritten⟩ := toDigits_of_isDigit hdigit
        have hpositive : 0 < digit.toNat - '0'.toNat := by
          simp only [Char.isDigit_iff_toNat, Char.reduceToNat] at hdigit ⊢
          have hne : digit.toNat ≠ 48 := fun heq ↦ hzero (Char.toNat_inj.1 heq)
          omega
        rw [withoutLeadingZeros_of_ne hzero, Nat.ofDigitChars_cons, Nat.mul_zero, Nat.zero_add,
          toDigits_ofDigitChars_of_pos hrest hpositive, hwritten]
        rfl

/-- Reading digits and writing the number takes away leading zeros. -/
theorem toString_decimalValue {digits : String} (h : ∀ digit ∈ digits.toList, digit.isDigit) :
    toString (decimalValue digits) = String.ofList (withoutLeadingZeros digits.toList) := by
  rw [decimalValue, Nat.toString_eq_repr, Nat.repr_eq_ofList_toDigits, toDigits_ofDigitChars h]

end DiceArithmetic.Reading
