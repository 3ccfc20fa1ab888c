import DiceArithmetic.Proofs.Evaluation.Width

/-!
# Which errors can be told

An error can be told if none of its integers is too long to be written. They are operands and bounds
on rolls; and an operand is a narrow integer, or else a number of the tree or a variable. So if all
the integers that an evaluation starts from can be written, then whatever interrupts it can be told:
`Evaluator.isTold_of_evaluate`.
-/

namespace DiceArithmetic

open Text

/-- An error that interrupts an evaluation can be told, and has been. -/
def Interruption.IsTold : Interruption → Prop
  | .evaluation error => error.IsTellable
  | .untold _ => False
  | .source _ => True

/-- An error that can be told is. -/
theorem EvaluationError.isTold_raised {error : EvaluationError} (h : error.IsTellable) :
    error.raised.IsTold := by
  rw [raised_of_isTellable h]
  exact h

theorem Interruption.IsTold.ne_untold {interruption : Interruption} (h : interruption.IsTold)
    (error : EvaluationError) : interruption ≠ .untold error := by
  rintro rfl
  exact h

/-- An integer as long as a number of a line may be can be written. -/
theorem digitCount_le_of_natAbs_lt {value : Int} (h : value.natAbs < 10 ^ Reading.maxDigits) :
    digitCount value ≤ maxNumeralDigits :=
  Nat.le_trans ((digitCount_le_iff (by decide)).2 h) (by decide)

/-- A narrow integer can be written. -/
theorem IsNarrow.digitCount_le {value : Int} (h : IsNarrow value) :
    digitCount value ≤ maxNumeralDigits :=
  digitCount_le_of_natAbs_lt (Nat.lt_trans h two_pow_maxBits_lt)

/-- The shortest integer that is too long to be written. -/
theorem not_digitCount_pow_le : ¬ digitCount (10 ^ maxNumeralDigits) ≤ maxNumeralDigits := by
  rw [digitCount_le_iff (by decide), Int.natAbs_pow]
  exact Nat.lt_irrefl _

namespace Node

/-- The numbers in a tree, from left to right. -/
def numbers {tier : Tier} : Node tier → List Int
  | .number value => [value]
  | .named _ => []
  | .parentheses inner => inner.numbers
  | .ofValue value => value.numbers
  | .power base exponent => base.numbers ++ exponent.numbers
  | .ofFactor factor => factor.numbers
  | .product left _ right => left.numbers ++ right.numbers
  | .ofTerm term => term.numbers
  | .sum left _ right => left.numbers ++ right.numbers

/-- The number that a tree is stands in it. -/
theorem mem_numbers_of_number? {tier : Tier} {node : Node tier} {number : Int}
    (h : node.number? = some number) : number ∈ node.numbers := by
  induction node with
  | number value =>
      cases h
      exact List.mem_singleton_self _
  | parentheses _ ih | ofValue _ ih | ofFactor _ ih | ofTerm _ ih => exact ih h
  | named | power | product | sum => cases h

end Node

namespace Limits

/-- The bounds that there are. -/
def caps (limits : Limits) : List Int :=
  limits.maxDice.toList ++ limits.maxSides.toList

theorem mem_toList_of_exceeded? {bound : Option Int} {value cap : Int}
    (h : exceeded? bound value = some cap) : cap ∈ bound.toList :=
  Option.mem_toList.2 (Option.filter_eq_some_iff.1 h).1

/-- A fault is told with the numbers of the roll and with bounds. -/
theorem integers_subset_of_objection? {limits : Limits} {count sides : Int} {fault : DiceFault}
    (h : limits.objection? count sides = some fault) :
    fault.integers ⊆ count :: sides :: limits.caps := by
  unfold objection? at h
  split at h
  next =>
      cases h
      simp [DiceFault.integers]
  next =>
      split at h
      next =>
          cases h
          simp [DiceFault.integers]
      next =>
          split at h
          next cap hcap =>
              cases h
              have hmem := mem_toList_of_exceeded? hcap
              simp_all [DiceFault.integers, caps]
          next cap _ hcap =>
              cases h
              have hmem := mem_toList_of_exceeded? hcap
              simp_all [DiceFault.integers, caps]
          next => cases h

end Limits

variable {left right : Int} {error : EvaluationError}

theorem isTellable_of_narrow {value : Int} (h : narrow value = .error error) :
    error.IsTellable := by
  obtain ⟨rfl, -⟩ := narrow_eq_error_iff.1 h
  exact EvaluationError.isTellable_tooWide

theorem isTellable_of_quotient (hleft : digitCount left ≤ maxNumeralDigits)
    (h : quotient left right = .error error) : error.IsTellable := by
  unfold quotient at h
  split at h <;> cases h
  exact List.forall_mem_cons.2 ⟨hleft, List.forall_mem_singleton.2 (by decide)⟩

/-- That a power is out of range can be told if its operands can be written. -/
theorem isTellable_powerOutOfRange_iff :
    (EvaluationError.powerOutOfRange left right).IsTellable ↔
      digitCount left ≤ maxNumeralDigits ∧ digitCount right ≤ maxNumeralDigits := by
  rw [EvaluationError.IsTellable, EvaluationError.integers, List.forall_mem_cons,
    List.forall_mem_singleton]

theorem isTellable_of_power (hleft : digitCount left ≤ maxNumeralDigits)
    (hright : digitCount right ≤ maxNumeralDigits) (h : power left right = .error error) :
    error.IsTellable := by
  unfold power at h
  split at h
  next => exact isTellable_of_narrow h
  next =>
      cases h
      exact isTellable_powerOutOfRange_iff.2 ⟨hleft, hright⟩

/-- An objection to a roll can be told if the numbers of the roll and the bounds can be written. -/
theorem Limits.isTellable_of_objection? {limits : Limits} {fault : DiceFault}
    (hcaps : ∀ cap ∈ limits.caps, digitCount cap ≤ maxNumeralDigits)
    (hleft : digitCount left ≤ maxNumeralDigits) (hright : digitCount right ≤ maxNumeralDigits)
    (h : limits.objection? left right = some fault) :
    (EvaluationError.invalidDice fault).IsTellable := by
  have hall : ∀ value ∈ left :: right :: limits.caps, digitCount value ≤ maxNumeralDigits :=
    List.forall_mem_cons.2 ⟨hleft, List.forall_mem_cons.2 ⟨hright, hcaps⟩⟩
  exact fun value hmem ↦ hall value (integers_subset_of_objection? h hmem)

/-- What interrupts a step that stands for a value or an error is told if the error can be. -/
theorem Step.isTold_of_ofExcept {σ α : Type} {outcome : Except EvaluationError α}
    {before after : Progress σ} {interruption : Interruption}
    (h : ofExcept outcome before = .error interruption after)
    (htellable : ∀ error, outcome = .error error → error.IsTellable) : interruption.IsTold := by
  obtain ⟨error, houtcome, rfl, -⟩ := ofExcept_eq_error_iff.1 h
  exact EvaluationError.isTold_raised (htellable error houtcome)

namespace Evaluator

variable {σ : Type} {evaluator : Evaluator} {source : Source σ} {before after : Progress σ}
  {interruption : Interruption}

/-- If all bounds on rolls and both operands can be written, an operator is interrupted by what can
be told. -/
theorem isTold_of_apply (hcaps : ∀ cap ∈ evaluator.limits.caps, digitCount cap ≤ maxNumeralDigits)
    (hleft : digitCount left ≤ maxNumeralDigits) (hright : digitCount right ≤ maxNumeralDigits)
    {op : Operator} (h : evaluator.apply source op left right before = .error interruption after) :
    interruption.IsTold := by
  rcases Step.bind_eq_error_iff.1 h with h | ⟨result, middle, -, h⟩
  · cases op with
    | add | subtract | multiply => cases h
    | divide => exact Step.isTold_of_ofExcept h fun error ↦ isTellable_of_quotient hleft
    | roll =>
        obtain ⟨error, rfl⟩ | ⟨fault, hobjection, rfl⟩ := Step.roll_eq_error_cases h
        · trivial
        · exact EvaluationError.isTold_raised
            (Limits.isTellable_of_objection? hcaps hleft hright hobjection)
  · exact Step.isTold_of_ofExcept h fun error ↦ isTellable_of_narrow

/-- If all variables and all numbers of a tree can be written, its value can be. -/
theorem digitCount_of_evaluate
    (hvariables : ∀ name, ∀ value ∈ evaluator.bindings.get? name,
      digitCount value ≤ maxNumeralDigits)
    {tier : Tier} {node : Node tier}
    (hnumbers : ∀ number ∈ node.numbers, digitCount number ≤ maxNumeralDigits) {value : Int}
    (h : evaluator.evaluate source node before = .ok value after) :
    digitCount value ≤ maxNumeralDigits :=
  evaluate_holds (fun value ↦ digitCount value ≤ maxNumeralDigits)
    (fun _ ↦ IsNarrow.digitCount_le) hvariables node
    (fun number hnumber ↦ hnumbers number (Node.mem_numbers_of_number? hnumber)) h

/-- If all that an evaluation starts from can be written, the bounds on rolls, the variables and the
numbers of the tree, then what interrupts it can be told. -/
theorem isTold_of_evaluate
    (hcaps : ∀ cap ∈ evaluator.limits.caps, digitCount cap ≤ maxNumeralDigits)
    (hvariables : ∀ name, ∀ value ∈ evaluator.bindings.get? name,
      digitCount value ≤ maxNumeralDigits)
    {tier : Tier} {node : Node tier}
    (hnumbers : ∀ number ∈ node.numbers, digitCount number ≤ maxNumeralDigits)
    (h : evaluator.evaluate source node before = .error interruption after) :
    interruption.IsTold := by
  induction node generalizing before after with
  | number => cases h
  | named name =>
      refine Step.isTold_of_ofExcept h fun error hlookUp ↦ ?_
      unfold lookUp at hlookUp
      split at hlookUp <;> cases hlookUp
      exact List.forall_mem_nil _
  | parentheses _ ih | ofValue _ ih | ofFactor _ ih | ofTerm _ ih => exact ih hnumbers h
  | power base exponent ihBase ihExponent =>
      obtain ⟨hbases, hexponents⟩ := List.forall_mem_append.1 hnumbers
      rcases Step.bind_eq_error_iff.1 h with h | ⟨left, middle, hbase, h⟩
      · exact ihBase hbases h
      rcases Step.bind_eq_error_iff.1 h with h | ⟨right, ready, hexponent, h⟩
      · exact ihExponent hexponents h
      · have hleft := digitCount_of_evaluate hvariables hbases hbase
        have hright := digitCount_of_evaluate hvariables hexponents hexponent
        exact Step.isTold_of_ofExcept h fun error ↦ isTellable_of_power hleft hright
  | product first op second ihFirst ihSecond | sum first op second ihFirst ihSecond =>
      obtain ⟨hfirsts, hseconds⟩ := List.forall_mem_append.1 hnumbers
      rcases Step.bind_eq_error_iff.1 h with h | ⟨left, middle, hfirst, h⟩
      · exact ihFirst hfirsts h
      rcases Step.bind_eq_error_iff.1 h with h | ⟨right, ready, hsecond, h⟩
      · exact ihSecond hseconds h
      · exact isTold_of_apply hcaps (digitCount_of_evaluate hvariables hfirsts hfirst)
          (digitCount_of_evaluate hvariables hseconds hsecond) h

end Evaluator

end DiceArithmetic
