import DiceArithmetic.Proofs.Display
import DiceArithmetic.Proofs.Evaluation.Checking
import DiceArithmetic.Proofs.Evaluation.Telling

/-!
# How many digits are written

An integer may be written in decimal only if it has at most `Text.maxNumeralDigits` digits. The
numbers of a line are short, and so are the variables that are accepted, so all that can be too long
is a bound on rolls. `Evaluation.ofLine_hasShortNumerals` says what follows for all that is told
about a line, down to the texts.
-/

namespace DiceArithmetic

namespace Text

/-- Nowhere in the text do more digits stand in a row than a numeral may have. -/
def HasShortNumerals (text : String) : Prop :=
  ∀ digits, digits <:+: text.toList → (∀ digit ∈ digits, digit.isDigit) →
    digits.length ≤ maxNumeralDigits

/-- The text has no digits. -/
def HasNoDigits (text : String) : Prop :=
  ∀ character ∈ text.toList, ¬ character.isDigit

-- This goes through the characters of the text; the instance that is found may go through all.
instance : DecidablePred HasNoDigits :=
  fun text ↦ List.decidableBAll _ text.toList

variable {first second separator text : String} {value : Int}

/-- Digits at the beginning of a text that begins with something else are none. -/
theorem eq_nil_of_begins {digits rest : List Char} {character : Char}
    (hcharacter : ¬ character.isDigit) (hbegins : digits <+: character :: rest)
    (hdigits : ∀ digit ∈ digits, digit.isDigit) : digits = [] := by
  rcases List.prefix_cons_iff.1 hbegins with hempty | ⟨_, rfl, -⟩
  · exact hempty
  · exact absurd (hdigits character List.mem_cons_self) hcharacter

/-- Digits in a text are behind whatever is not a digit at its beginning. -/
theorem infix_of_infix_append {plain rest digits : List Char}
    (hplain : ∀ character ∈ plain, ¬ character.isDigit) (hwithin : digits <:+: plain ++ rest)
    (hdigits : ∀ digit ∈ digits, digit.isDigit) : digits <:+: rest := by
  induction plain with
  | nil => exact hwithin
  | cons character plain ih =>
      obtain ⟨hcharacter, hplain⟩ := List.forall_mem_cons.1 hplain
      rcases List.infix_cons_iff.1 hwithin with hbegins | hwithin
      · rw [eq_nil_of_begins hcharacter hbegins hdigits]
        exact List.nil_infix
      · exact ih hplain hwithin

/-- A short text has short numerals. -/
theorem hasShortNumerals_of_length_le (h : text.toList.length ≤ maxNumeralDigits) :
    HasShortNumerals text :=
  fun _ hwithin _ ↦ Nat.le_trans hwithin.length_le h

/-- An integer with few digits is written with few digits. -/
theorem hasShortNumerals_toString (h : digitCount value ≤ maxNumeralDigits) :
    HasShortNumerals (toString value) := by
  intro digits hwithin hdigits
  rw [Reading.toList_toString] at hwithin
  split at hwithin
  next =>
      rcases List.infix_cons_iff.1 hwithin with hbegins | hwithin
      · rw [eq_nil_of_begins (by decide) hbegins hdigits]
        exact Nat.zero_le _
      · exact Nat.le_trans hwithin.length_le h
  next => exact Nat.le_trans hwithin.length_le h

/-- Texts with something between them that has no digits have the numerals of both. -/
theorem HasShortNumerals.join (hfirst : HasShortNumerals first) (hsecond : HasShortNumerals second)
    (hne : separator.toList ≠ []) (hplain : HasNoDigits separator) :
    HasShortNumerals (first ++ separator ++ second) := by
  intro digits hwithin hdigits
  rw [String.append_assoc, String.toList_append, String.toList_append, List.infix_append_iff]
    at hwithin
  rcases hwithin with hwithin | hwithin | ⟨ending, beginning, rfl, hending, hbeginning⟩
  · exact hfirst digits hwithin hdigits
  · exact hsecond digits (infix_of_infix_append hplain hwithin hdigits) hdigits
  · obtain ⟨character, rest, hseparator⟩ := List.exists_cons_of_ne_nil hne
    have hcharacter : ¬ character.isDigit :=
      hplain character (hseparator ▸ List.mem_cons_self)
    rw [hseparator] at hbeginning
    obtain rfl : beginning = [] := eq_nil_of_begins hcharacter hbeginning
      fun digit hmem ↦ hdigits digit (List.mem_append_right _ hmem)
    rw [List.append_nil] at hdigits ⊢
    exact hfirst ending hending.isInfix hdigits

/-- Something without digits may stand in front of a text. -/
theorem HasShortNumerals.prepend (h : HasShortNumerals text) (hplain : HasNoDigits separator) :
    HasShortNumerals (separator ++ text) := by
  intro digits hwithin hdigits
  rw [String.toList_append] at hwithin
  exact h digits (infix_of_infix_append hplain hwithin hdigits) hdigits

/-- A text without digits has no numerals. -/
theorem HasNoDigits.hasShortNumerals (hplain : HasNoDigits text) : HasShortNumerals text := by
  have hnothing : HasShortNumerals "" := hasShortNumerals_of_length_le (Nat.zero_le _)
  have hprepended := hnothing.prepend hplain
  rwa [String.append_empty] at hprepended

/-- Something without digits may stand behind a text. -/
theorem HasShortNumerals.append (h : HasShortNumerals text) (hne : separator.toList ≠ [])
    (hplain : HasNoDigits separator) : HasShortNumerals (text ++ separator) := by
  have hnothing : HasShortNumerals "" := hasShortNumerals_of_length_le (Nat.zero_le _)
  have hjoined := h.join hnothing hne hplain
  rwa [String.append_empty] at hjoined

end Text

open Text

namespace Node

/-- The numbers of a line of text can be written. -/
theorem Readable.digitCount_le {tier : Tier} {node : Node tier} (h : node.Readable) :
    ∀ number ∈ node.numbers, digitCount number ≤ maxNumeralDigits := by
  induction node with
  | number value => exact List.forall_mem_singleton.2 (digitCount_le_of_natAbs_lt h.2)
  | named name => exact List.forall_mem_nil _
  | parentheses _ ih | ofValue _ ih | ofFactor _ ih | ofTerm _ ih => exact ih h
  | power base exponent ihBase ihExponent =>
      exact List.forall_mem_append.2 ⟨ihBase h.1, ihExponent h.2⟩
  | product left op right ihLeft ihRight | sum left op right ihLeft ihRight =>
      exact List.forall_mem_append.2 ⟨ihLeft h.1, ihRight h.2.2⟩

/-- A tree is written with the digits of its numbers. -/
theorem Readable.hasShortNumerals_render {tier : Tier} {node : Node tier} (h : node.Readable) :
    HasShortNumerals node.render := by
  induction node with
  | number value => exact hasShortNumerals_toString (digitCount_le_of_natAbs_lt h.2)
  | named name =>
      refine HasNoDigits.hasShortNumerals fun character hmem hdigit ↦ ?_
      exact absurd (h.2 character hmem) (Bool.eq_false_iff.1 (Lexeme.digit_class hdigit).2)
  | parentheses inner ih =>
      exact ((ih h).prepend (by decide)).append (by decide) (by decide)
  | ofValue _ ih | ofFactor _ ih | ofTerm _ ih => exact ih h
  | power base exponent ihBase ihExponent =>
      exact (ihBase h.1).join (ihExponent h.2) (by decide) (by decide)
  | product left op right ihLeft ihRight | sum left op right ihLeft ihRight =>
      have hjoined :
          HasShortNumerals (left.render ++ (" " ++ op.symbol ++ " ") ++ right.render) := by
        refine (ihLeft h.1).join (ihRight h.2.2) ?_ ?_ <;> cases op <;> decide
      simpa only [render, String.append_assoc] using hjoined

end Node

/-- A fault is told with the digits of its integers. -/
theorem DiceFault.hasShortNumerals_detail {fault : DiceFault}
    (h : ∀ value ∈ fault.integers, digitCount value ≤ maxNumeralDigits) :
    HasShortNumerals fault.detail := by
  cases fault with
  | negativeCount count | noSides count =>
      have hcount := hasShortNumerals_toString (h count (List.mem_singleton_self count))
      exact hcount.prepend (by decide)
  | tooManyDice count limit | tooManySides count limit =>
      have hcount := hasShortNumerals_toString (h count List.mem_cons_self)
      have hlimit :=
        hasShortNumerals_toString (h limit (List.mem_cons_of_mem _ List.mem_cons_self))
      exact ((hcount.prepend (by decide)).join hlimit (by decide) (by decide)).append (by decide)
        (by decide)

/-- An error is told with the digits of its integers, unless a variable is to blame for it. -/
theorem EvaluationError.hasShortNumerals_detail {error : EvaluationError} (h : error.IsTellable)
    (hfault : error.fault ≠ .invalidVariable) :
    ∀ detail ∈ error.detail?, HasShortNumerals detail := by
  cases error with
  | undefinedVariable name => nofun
  | divisionByZero dividend =>
      rintro _ ⟨⟩
      have hdividend := hasShortNumerals_toString (h dividend List.mem_cons_self)
      have hzero := hasShortNumerals_toString (h 0 (List.mem_cons_of_mem _ List.mem_cons_self))
      have hquotient : HasShortNumerals (toString dividend ++ " / " ++ toString (0 : Int)) :=
        hdividend.join hzero (by decide) (by decide)
      rwa [String.append_assoc] at hquotient
  | invalidDice fault =>
      rintro _ ⟨⟩
      exact fault.hasShortNumerals_detail h
  | tooWide =>
      rintro _ ⟨⟩
      exact hasShortNumerals_of_length_le (by decide)
  | powerOutOfRange base exponent =>
      rintro _ ⟨⟩
      have hbase := hasShortNumerals_toString (h base List.mem_cons_self)
      have hexponent :=
        hasShortNumerals_toString (h exponent (List.mem_cons_of_mem _ List.mem_cons_self))
      exact hbase.join hexponent (by decide) (by decide)
  | invalidVariable name offered => exact absurd rfl hfault

namespace Evaluator

variable {evaluator : Evaluator} {offered : Bindings Scalar} {limits : Limits}

/-- The variables that are accepted can be written. -/
theorem BindsNarrow.digitCount_le (h : evaluator.BindsNarrow) (name : String) :
    ∀ value ∈ evaluator.bindings.get? name, digitCount value ≤ maxNumeralDigits :=
  fun value hvalue ↦ (h name value hvalue).digitCount_le

/-- That a variable is not accepted can be told. -/
theorem isTellable_of_prepare {error : EvaluationError} (h : prepare offered limits = .error error) :
    error.IsTellable := by
  obtain ⟨name, scalar, -, rfl⟩ := prepare_eq_error_iff.1 h
  cases scalar with
  | integer value => exact EvaluationError.isTellable_tooWide
  | float | text | boolean | missing => exact List.forall_mem_nil _

end Evaluator

namespace Evaluation

variable {σ : Type} {source : Source σ} {state : σ} {offered : Bindings Scalar} {limits : Limits}
  {line : String} {progress : Progress σ}

/-- If the bounds on rolls can be written, whatever interrupts the evaluation of a line can be
told. -/
theorem isTold_of_ofLine (hcaps : ∀ cap ∈ limits.caps, digitCount cap ≤ maxNumeralDigits)
    {interruption : Interruption}
    (h : ofLine source state offered limits line = .error (.interrupted interruption) progress) :
    interruption.IsTold := by
  unfold ofLine at h
  split at h
  next => cases h
  next expression hread =>
      split at h
      next hprepare =>
          cases h
          exact Evaluator.isTellable_of_prepare hprepare
      next evaluator hprepare =>
          obtain ⟨rfl, hbinds⟩ := Evaluator.bindsNarrow_of_prepare hprepare
          have hreadable := (Expression.readable_of_ofLine hread).1
          exact Evaluator.isTold_of_evaluate hcaps hbinds.digitCount_le hreadable.digitCount_le
            (ofExpression_eq_error_iff.1 h)

/-- All integers that are told of a line are short, and so are the numerals of the texts that are
told, if the bounds on rolls are short: the total and the numbers of the normal form if the line has
an evaluation, and those of the error if it fails with one that is about numbers. No error is too
long to be told. -/
theorem ofLine_hasShortNumerals (source : Source σ) (state : σ) (offered : Bindings Scalar)
    (limits : Limits) (line : String)
    (hcaps : ∀ cap ∈ limits.caps, digitCount cap ≤ maxNumeralDigits) :
    (∀ evaluation progress, ofLine source state offered limits line = .ok evaluation progress →
      digitCount evaluation.total ≤ maxNumeralDigits ∧
        (∀ number ∈ evaluation.expression.numbers, digitCount number ≤ maxNumeralDigits) ∧
        HasShortNumerals evaluation.normalized ∧ HasShortNumerals evaluation.display) ∧
    (∀ error progress,
      ofLine source state offered limits line =
        .error (.interrupted (.evaluation error)) progress →
      error.fault = .divisionByZero ∨ error.fault = .overflow ∨ error.fault = .invalidDice →
      (∀ value ∈ error.integers, digitCount value ≤ maxNumeralDigits) ∧
        ∀ detail ∈ error.detail?, HasShortNumerals detail) ∧
    ∀ error progress,
      ofLine source state offered limits line ≠ .error (.interrupted (.untold error)) progress := by
  refine ⟨fun evaluation progress h ↦ ?_, fun error progress h hfault ↦ ?_,
    fun error progress h ↦ ?_⟩
  · obtain ⟨expression, evaluator, total, hread, hprepare, hrun, rfl⟩ := ofLine_eq_ok_iff.1 h
    obtain ⟨-, hbinds⟩ := Evaluator.bindsNarrow_of_prepare hprepare
    have hreadable := (Expression.readable_of_ofLine hread).1
    have hnumbers := hreadable.digitCount_le
    have htotal : digitCount total ≤ maxNumeralDigits :=
      Evaluator.digitCount_of_evaluate hbinds.digitCount_le hnumbers hrun
    have hnormalized := hreadable.hasShortNumerals_render
    exact ⟨htotal, hnumbers, hnormalized,
      hnormalized.join (hasShortNumerals_toString htotal) (by decide) (by decide)⟩
  · have htellable : error.IsTellable := isTold_of_ofLine hcaps h
    refine ⟨htellable, error.hasShortNumerals_detail htellable ?_⟩
    intro hvariable
    rw [hvariable] at hfault
    rcases hfault with hfault | hfault | hfault <;> cases hfault
  · exact (isTold_of_ofLine hcaps h).ne_untold error rfl

/-- With a limit of one die, `1d4` has a display, `7 / 0` is told with its dividend, and `2d6` with
the dice and the limit. -/
theorem ofLine_hasShortNumerals_dice :
    let limits : Limits := ⟨some 1, none⟩
    let evaluate (line : String) := ofLine Generator.source (.fixed 4) .empty limits line
    let start : Progress Generator := { source := .fixed 4 }
    let rolled : Progress Generator :=
      ⟨.fixed 4, #[⟨1, 4, [4], 4⟩], #[.rolling 1 4, .face 4 4]⟩
    let die : Expression :=
      .sum (.ofTerm (.ofFactor (.ofValue (.number 1)))) .roll (.ofFactor (.ofValue (.number 4)))
    (∀ cap ∈ limits.caps, digitCount cap ≤ maxNumeralDigits) ∧
      (evaluate "1d4" = .ok ⟨"1d4", die, 4, [⟨1, 4, [4], 4⟩]⟩ rolled ∧
        HasShortNumerals "1 d 4 = 4") ∧
      (evaluate "7 / 0" = .error (.interrupted (.evaluation (.divisionByZero 7))) start ∧
        HasShortNumerals "7 / 0") ∧
      evaluate "2d6" =
          .error (.interrupted (.evaluation (.invalidDice (.tooManyDice 2 1)))) start ∧
        HasShortNumerals "too many dice: 2 (max 1)" := by
  intro limits evaluate start rolled die
  let evaluator : Evaluator := ⟨.empty, limits⟩
  have hcaps : ∀ cap ∈ limits.caps, digitCount cap ≤ maxNumeralDigits := by decide
  have hnarrow : IsNarrow 4 :=
    (narrow_eq_ok_iff.1 (narrow_of_natAbs_lt (show 3 ≤ maxBits by decide) (by decide))).2
  have hrun : evaluator.run Generator.source die (.fixed 4) = .ok 4 rolled := by
    refine Step.bind_eq_ok_iff.2 ⟨1, _, rfl, Step.bind_eq_ok_iff.2 ⟨4, _, rfl, ?_⟩⟩
    exact Evaluator.apply_eq_ok_iff.2 ⟨rfl, hnarrow⟩
  have hdie : evaluate "1d4" = .ok ⟨"1d4", die, 4, [⟨1, 4, [4], 4⟩]⟩ rolled :=
    ofLine_eq_ok_iff.2 ⟨die, evaluator, 4, by decide +kernel, rfl, hrun, rfl⟩
  have hquotientRead : Expression.ofString "7 / 0" =
      .ok (.ofTerm (.product (.ofFactor (.ofValue (.number 7))) .divide
        (.ofValue (.number 0)))) := by
    decide +kernel
  have hdiceRead : Expression.ofString "2d6" =
      .ok (.sum (.ofTerm (.ofFactor (.ofValue (.number 2)))) .roll
        (.ofFactor (.ofValue (.number 6)))) := by
    decide +kernel
  have hquotient : evaluate "7 / 0" =
      .error (.interrupted (.evaluation (.divisionByZero 7))) start := by
    show ofLine _ _ _ _ _ = _
    rw [ofLine_of_ok hquotientRead rfl]
    rfl
  have hdice : evaluate "2d6" =
      .error (.interrupted (.evaluation (.invalidDice (.tooManyDice 2 1)))) start := by
    show ofLine _ _ _ _ _ = _
    rw [ofLine_of_ok hdiceRead rfl]
    rfl
  have hshort (line : String) := ofLine_hasShortNumerals Generator.source (.fixed 4) .empty limits
    line hcaps
  refine ⟨hcaps, ⟨hdie, ?_⟩, ⟨hquotient, ?_⟩, hdice, ?_⟩
  · exact ((hshort "1d4").1 _ _ hdie).2.2.2
  · exact ((hshort "7 / 0").2.1 _ _ hquotient (.inl rfl)).2 _ rfl
  · exact ((hshort "2d6").2.1 _ _ hdice (.inr (.inr rfl))).2 _ rfl

end Evaluation

end DiceArithmetic
