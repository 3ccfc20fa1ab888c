import DiceArithmetic.Evaluation
import DiceArithmetic.Proofs.Evaluation.Composition
import DiceArithmetic.Proofs.RoundTrip
import DiceArithmetic.Random.Generator

/-!
# How wide the values of an evaluation are

An integer is narrow if its magnitude has at most `maxBits` binary digits. The variables of an
evaluator that could be prepared are narrow, and so is every result of an operator or of a power;
`Evaluator.evaluate_eq_tooWide_iff` says that an evaluation is too wide just when such a result
would not be. Numbers in a tree are taken as they are, and `Reading.maxDigits` decimal digits hold
more than `maxBits` binary ones. So a tree that is a single number may have a value that is not
narrow, and `Evaluator.evaluate_isNarrow_or_number` says that no other tree has.
-/

namespace DiceArithmetic

/-- The magnitude of the integer has at most `maxBits` binary digits. -/
def IsNarrow (value : Int) : Prop :=
  value.natAbs < 2 ^ maxBits

instance (value : Int) : Decidable (IsNarrow value) :=
  inferInstanceAs (Decidable (_ < _))

theorem narrow_of_isNarrow {value : Int} (h : IsNarrow value) : narrow value = .ok value :=
  if_pos h

theorem narrow_eq_ok_iff {value result : Int} :
    narrow value = .ok result ↔ value = result ∧ IsNarrow result := by
  unfold narrow
  split
  next hnarrow =>
      rw [Except.ok.injEq]
      constructor
      · rintro rfl
        exact ⟨rfl, hnarrow⟩
      · exact And.left
  next hwide =>
      constructor
      · nofun
      · rintro ⟨rfl, hnarrow⟩
        exact absurd hnarrow hwide

/-- An integer that is not narrow is too wide. -/
theorem narrow_eq_error_iff {value : Int} {error : EvaluationError} :
    narrow value = .error error ↔ error = .tooWide ∧ ¬ IsNarrow value := by
  unfold narrow
  split
  next hnarrow =>
      constructor
      · nofun
      · rintro ⟨-, hwide⟩
        exact absurd hnarrow hwide
  next hwide =>
      rw [Except.error.injEq]
      constructor
      · rintro rfl
        exact ⟨rfl, hwide⟩
      · rintro ⟨rfl, -⟩
        rfl

/-- The longest numbers of a line are wider than a result may be. -/
theorem two_pow_maxBits_lt : 2 ^ maxBits < 10 ^ Reading.maxDigits := by
  decide +kernel

/-- The longest number that a line can hold. -/
def longest : Nat :=
  10 ^ Reading.maxDigits - 1

theorem readable_longest : (Node.number longest).Readable := by
  refine ⟨Int.natCast_nonneg longest, ?_⟩
  rw [Int.natAbs_natCast]
  exact Nat.sub_lt (Nat.pow_pos (by decide)) Nat.zero_lt_one

theorem not_isNarrow_of_longest_le {value : Int} (h : longest ≤ value) : ¬ IsNarrow value := by
  have hwide : 2 ^ maxBits ≤ longest := Nat.le_sub_one_of_lt two_pow_maxBits_lt
  have hlongest : longest ≤ value.natAbs := by omega
  exact Nat.not_lt.2 (Nat.le_trans hwide hlongest)

theorem isNarrow_of_power_eq_ok {base exponent value : Int}
    (h : power base exponent = .ok value) : IsNarrow value := by
  unfold power at h
  split at h
  next => exact (narrow_eq_ok_iff.1 h).2
  next => cases h

theorem power_eq_tooWide_iff {base exponent : Int} :
    power base exponent = .error .tooWide ↔
      ∃ value, Binary64.power? base exponent = some value ∧ ¬ IsNarrow value := by
  unfold power
  split
  next value hpower =>
      rw [narrow_eq_error_iff, hpower]
      simp
  next hpower =>
      rw [hpower]
      simp

namespace Step

variable {σ : Type} {source : Source σ} {before after : Progress σ}

/-- Throws of dice are interrupted by the source only. -/
theorem exists_source_of_throwDice {sides : Int} {count : Nat} {thrown : Array Int}
    {interruption : Interruption}
    (h : throwDice source sides count thrown before = .error interruption after) :
    ∃ error, interruption = .source error := by
  induction count generalizing thrown before with
  | zero => cases h
  | succ count ih =>
      rcases bind_eq_error_iff.1 h with h | ⟨face, middle, -, h⟩
      · unfold draw at h
        split at h <;> cases h
        exact ⟨_, rfl⟩
      · rcases bind_eq_error_iff.1 h with h | ⟨_, _, -, h⟩
        · cases h
        · exact ih h

/-- A roll is interrupted by the source, or else by the objection to it. -/
theorem roll_eq_error_cases {limits : Limits} {count sides : Int} {interruption : Interruption}
    (h : roll source limits count sides before = .error interruption after) :
    (∃ error, interruption = .source error) ∨
      ∃ fault, limits.objection? count sides = some fault ∧
        (EvaluationError.invalidDice fault).raised = interruption := by
  unfold roll at h
  cases hobjection : limits.objection? count sides with
  | some fault =>
      rw [hobjection] at h
      obtain ⟨_, ⟨⟩, hraised, -⟩ := ofExcept_eq_error_iff.1 h
      exact .inr ⟨fault, rfl, hraised⟩
  | none =>
      rw [hobjection] at h
      rcases bind_eq_error_iff.1 h with h | ⟨_, _, -, h⟩
      · cases h
      rcases bind_eq_error_iff.1 h with h | ⟨thrown, middle, -, h⟩
      · exact .inl (exists_source_of_throwDice h)
      · rcases bind_eq_error_iff.1 h with h | ⟨_, _, -, h⟩ <;> cases h

/-- If the interruption of two operands, and of what is made of them, goes back to a bad value in
them, then so does the interruption of all three in a row. -/
theorem operands_eq_error_iff {first second : Step σ Int} {next : Int → Int → Step σ Int}
    {interruption : Interruption} {Bad : Int → Prop} {inFirst : Int → Prop}
    {inSecond : Progress σ → Int → Prop} {inNext : Int → Int → Progress σ → Int → Prop}
    (hfirst : first before = .error interruption after ↔ ∃ value, inFirst value ∧ Bad value)
    (hsecond : ∀ middle, second middle = .error interruption after ↔
      ∃ value, inSecond middle value ∧ Bad value)
    (hnext : ∀ left right ready, next left right ready = .error interruption after ↔
      ∃ value, inNext left right ready value ∧ Bad value) :
    (first >>= fun left ↦ second >>= next left) before = .error interruption after ↔
      ∃ value, (inFirst value ∨ ∃ left middle, first before = .ok left middle ∧
        (inSecond middle value ∨ ∃ right ready, second middle = .ok right ready ∧
          inNext left right ready value)) ∧ Bad value := by
  simp only [bind_eq_error_iff, hfirst, hsecond, hnext]
  constructor
  · rintro (⟨value, hvalue, hbad⟩ | ⟨left, middle, hleft, h⟩)
    · exact ⟨value, .inl hvalue, hbad⟩
    rcases h with ⟨value, hvalue, hbad⟩ | ⟨right, ready, hright, value, hvalue, hbad⟩
    · exact ⟨value, .inr ⟨left, middle, hleft, .inl hvalue⟩, hbad⟩
    · exact ⟨value, .inr ⟨left, middle, hleft, .inr ⟨right, ready, hright, hvalue⟩⟩, hbad⟩
  · rintro ⟨value, hvalue | ⟨left, middle, hleft, hvalue | ⟨right, ready, hright, hvalue⟩⟩, hbad⟩
    · exact .inl ⟨value, hvalue, hbad⟩
    · exact .inr ⟨left, middle, hleft, .inl ⟨value, hvalue, hbad⟩⟩
    · exact .inr ⟨left, middle, hleft, .inr ⟨right, ready, hright, value, hvalue, hbad⟩⟩

end Step

/-- The number that a tree is, in however many parentheses. A tree with a variable or an operator is
none. -/
def Node.number? {tier : Tier} : Node tier → Option Int
  | .number value => some value
  | .parentheses inner => inner.number?
  | .ofValue value => value.number?
  | .ofFactor factor => factor.number?
  | .ofTerm term => term.number?
  | .named _ | .power .. | .product .. | .sum .. => none

namespace Evaluator

variable {σ : Type} {evaluator : Evaluator} {source : Source σ}

/-- The variables of the evaluator are narrow. -/
def BindsNarrow (evaluator : Evaluator) : Prop :=
  ∀ name, ∀ value ∈ evaluator.bindings.get? name, IsNarrow value

/-- A prepared evaluator has the limits it was given, and its variables are narrow. -/
theorem bindsNarrow_of_prepare {offered : Bindings Scalar} {limits : Limits}
    (h : prepare offered limits = .ok evaluator) :
    evaluator.limits = limits ∧ evaluator.BindsNarrow := by
  unfold prepare at h
  split at h
  next bindings htraverse =>
      cases h
      refine ⟨rfl, fun name value hvalue ↦ ?_⟩
      obtain ⟨scalar, -, haccept⟩ := Bindings.exists_mem_of_traverse htraverse hvalue
      unfold accept at haccept
      split at haccept
      next => exact (narrow_eq_ok_iff.1 haccept).2
      next => cases haccept
  next => cases h

/-- An operator has just those results that are narrow. -/
theorem apply_eq_ok_iff {op : Operator} {left right value : Int} {before after : Progress σ} :
    evaluator.apply source op left right before = .ok value after ↔
      evaluator.combine source op left right before = .ok value after ∧ IsNarrow value := by
  unfold apply
  rw [Step.bind_eq_ok_iff]
  constructor
  · rintro ⟨result, middle, hcombine, h⟩
    obtain ⟨hnarrow, rfl⟩ := Step.ofExcept_eq_ok_iff.1 h
    obtain ⟨rfl, hnarrow⟩ := narrow_eq_ok_iff.1 hnarrow
    exact ⟨hcombine, hnarrow⟩
  · rintro ⟨hcombine, hnarrow⟩
    exact ⟨value, after, hcombine,
      Step.ofExcept_eq_ok_iff.2 ⟨narrow_of_isNarrow hnarrow, rfl⟩⟩

/-- What holds of narrow integers, of variables and of the number that a tree may be, holds of the
value of the tree. -/
theorem evaluate_holds (holds : Int → Prop) (hnarrow : ∀ value, IsNarrow value → holds value)
    (hvariables : ∀ name, ∀ value ∈ evaluator.bindings.get? name, holds value) {tier : Tier}
    (node : Node tier) (hnumber : ∀ number ∈ node.number?, holds number)
    {before after : Progress σ} {value : Int}
    (h : evaluator.evaluate source node before = .ok value after) : holds value := by
  induction node generalizing before after value with
  | number number =>
      cases h
      exact hnumber number rfl
  | named name =>
      obtain ⟨hlookUp, -⟩ := Step.ofExcept_eq_ok_iff.1 h
      unfold lookUp at hlookUp
      split at hlookUp
      next hbound =>
          cases hlookUp
          exact hvariables name value hbound
      next => cases hlookUp
  | parentheses _ ih | ofValue _ ih | ofFactor _ ih | ofTerm _ ih => exact ih hnumber h
  | power base exponent _ _ =>
      obtain ⟨_, _, -, h⟩ := Step.bind_eq_ok_iff.1 h
      obtain ⟨_, _, -, h⟩ := Step.bind_eq_ok_iff.1 h
      exact hnarrow value (isNarrow_of_power_eq_ok (Step.ofExcept_eq_ok_iff.1 h).1)
  | product left op right _ _ | sum left op right _ _ =>
      obtain ⟨_, _, -, h⟩ := Step.bind_eq_ok_iff.1 h
      obtain ⟨_, _, -, h⟩ := Step.bind_eq_ok_iff.1 h
      exact hnarrow value (apply_eq_ok_iff.1 h).2

/-- The value of a tree is narrow unless the tree is a number. -/
theorem evaluate_isNarrow_or_number (hbinds : evaluator.BindsNarrow) {tier : Tier}
    (node : Node tier) {before after : Progress σ} {value : Int}
    (h : evaluator.evaluate source node before = .ok value after) :
    IsNarrow value ∨ node.number? = some value :=
  evaluate_holds (fun value ↦ IsNarrow value ∨ node.number? = some value)
    (fun _ ↦ .inl) (fun name value hvalue ↦ .inl (hbinds name value hvalue)) node
    (fun _ ↦ .inr) h

/-- The value of a tree that is a number is that number. -/
theorem evaluate_of_number? (evaluator : Evaluator) (source : Source σ) {tier : Tier}
    {node : Node tier} {number : Int} (h : node.number? = some number) (before : Progress σ) :
    evaluator.evaluate source node before = .ok number before := by
  induction node with
  | number value =>
      cases h
      rfl
  | parentheses _ ih | ofValue _ ih | ofFactor _ ih | ofTerm _ ih => exact ih h
  | named | power | product | sum => cases h

/-- Before its result is checked, an operator has no errors but that a divisor is zero or a roll is
not allowed. -/
theorem fault_of_combine {op : Operator} {left right : Int} {before after : Progress σ}
    {error : EvaluationError}
    (h : evaluator.combine source op left right before = .error (.evaluation error) after) :
    error.fault = .divisionByZero ∨ error.fault = .invalidDice := by
  cases op with
  | add | subtract | multiply => cases h
  | divide =>
      obtain ⟨hquotient, -⟩ := Step.ofExcept_eq_evaluation_iff.1 h
      unfold quotient at hquotient
      split at hquotient
      next =>
          cases hquotient
          exact .inl rfl
      next => cases hquotient
  | roll =>
      obtain ⟨_, ⟨⟩⟩ | ⟨fault, -, hraised⟩ := Step.roll_eq_error_cases h
      obtain ⟨rfl, -⟩ := EvaluationError.raised_eq_evaluation_iff.1 hraised
      exact .inr rfl

/-- An operator is too wide just when its result is not narrow. -/
theorem apply_eq_tooWide_iff {op : Operator} {left right : Int} {before after : Progress σ} :
    evaluator.apply source op left right before = .error (.evaluation .tooWide) after ↔
      ∃ value, evaluator.combine source op left right before = .ok value after ∧
        ¬ IsNarrow value := by
  unfold apply
  rw [Step.bind_eq_error_iff]
  constructor
  · rintro (h | ⟨value, middle, hcombine, h⟩)
    · rcases fault_of_combine h with hfault | hfault <;> cases hfault
    · obtain ⟨hnarrow, -, rfl⟩ := Step.ofExcept_eq_evaluation_iff.1 h
      exact ⟨value, hcombine, (narrow_eq_error_iff.1 hnarrow).2⟩
  · rintro ⟨value, hcombine, hwide⟩
    have hnarrow := narrow_eq_error_iff.2 ⟨rfl, hwide⟩
    exact .inr ⟨value, after, hcombine, Step.ofExcept_eq_evaluation_iff.2
      ⟨hnarrow, EvaluationError.isTellable_tooWide, rfl⟩⟩

/-- While the tree is evaluated, from the progress before, an operation in it comes to the value,
whatever the width of the value, with the progress after. -/
def Computes (evaluator : Evaluator) (source : Source σ) {tier : Tier} :
    Node tier → (before : Progress σ) → (value : Int) → (after : Progress σ) → Prop
  | .number _, _, _, _ | .named _, _, _, _ => False
  | .parentheses inner, before, value, after => evaluator.Computes source inner before value after
  | .ofValue inner, before, value, after => evaluator.Computes source inner before value after
  | .power base exponent, before, value, after =>
      evaluator.Computes source base before value after ∨
        ∃ left middle, evaluator.evaluate source base before = .ok left middle ∧
          (evaluator.Computes source exponent middle value after ∨
            ∃ right ready, evaluator.evaluate source exponent middle = .ok right ready ∧
              Binary64.power? left right = some value ∧ ready = after)
  | .ofFactor factor, before, value, after => evaluator.Computes source factor before value after
  | .product first op second, before, value, after | .sum first op second, before, value, after =>
      evaluator.Computes source first before value after ∨
        ∃ left middle, evaluator.evaluate source first before = .ok left middle ∧
          (evaluator.Computes source second middle value after ∨
            ∃ right ready, evaluator.evaluate source second middle = .ok right ready ∧
              evaluator.combine source op left right ready = .ok value after)
  | .ofTerm term, before, value, after => evaluator.Computes source term before value after

/-- The evaluation of a tree is too wide just when an operation in it comes to a value that is not
narrow. -/
theorem evaluate_eq_tooWide_iff {tier : Tier} {node : Node tier} {before after : Progress σ} :
    evaluator.evaluate source node before = .error (.evaluation .tooWide) after ↔
      ∃ value, evaluator.Computes source node before value after ∧ ¬ IsNarrow value := by
  induction node generalizing before after with
  | number =>
      constructor
      · nofun
      · rintro ⟨_, h, -⟩
        exact h.elim
  | named name =>
      constructor
      · intro h
        obtain ⟨hlookUp, -⟩ := Step.ofExcept_eq_evaluation_iff.1 h
        unfold lookUp at hlookUp
        split at hlookUp <;> cases hlookUp
      · rintro ⟨_, h, -⟩
        exact h.elim
  | parentheses _ ih | ofValue _ ih | ofFactor _ ih | ofTerm _ ih => exact ih
  | power base exponent ihBase ihExponent =>
      refine Step.operands_eq_error_iff ihBase (fun _ ↦ ihExponent) fun left right ready ↦ ?_
      rw [Step.ofExcept_eq_evaluation_iff, power_eq_tooWide_iff]
      constructor
      · rintro ⟨⟨value, hpower, hwide⟩, -, hready⟩
        exact ⟨value, ⟨hpower, hready⟩, hwide⟩
      · rintro ⟨value, ⟨hpower, hready⟩, hwide⟩
        exact ⟨⟨value, hpower, hwide⟩, EvaluationError.isTellable_tooWide, hready⟩
  | product _ _ _ ihFirst ihSecond | sum _ _ _ ihFirst ihSecond =>
      exact Step.operands_eq_error_iff ihFirst (fun _ ↦ ihSecond) fun _ _ _ ↦ apply_eq_tooWide_iff

end Evaluator

namespace Evaluation

variable {σ : Type}

/-- The total of a line is narrow unless the line is a single number that is not, in however many
parentheses; of a single number it is that number. -/
theorem total_isNarrow_iff {source : Source σ} {state : σ} {offered : Bindings Scalar}
    {limits : Limits} {line : String} {evaluation : Evaluation} {progress : Progress σ}
    (h : ofLine source state offered limits line = .ok evaluation progress) :
    (IsNarrow evaluation.total ↔
        ∀ number ∈ evaluation.expression.number?, IsNarrow number) ∧
      ∀ number ∈ evaluation.expression.number?, evaluation.total = number := by
  obtain ⟨expression, evaluator, total, -, hprepare, hrun, rfl⟩ := ofLine_eq_ok_iff.1 h
  obtain ⟨-, hbinds⟩ := Evaluator.bindsNarrow_of_prepare hprepare
  have hnumber (number : Int) (hnumber : number ∈ expression.number?) : total = number := by
    cases hrun.symm.trans (evaluator.evaluate_of_number? source hnumber { source := state })
    rfl
  refine ⟨⟨fun hnarrow number hmem ↦ hnumber number hmem ▸ hnarrow, fun hnarrow ↦ ?_⟩, hnumber⟩
  rcases Evaluator.evaluate_isNarrow_or_number hbinds expression hrun with h | h
  · exact h
  · exact hnarrow total h

/-- The total of a line is narrow unless the line is a single number that is not, in however many
parentheses; of a single number it is that number. If a line is read and the variables are accepted,
then these are narrow, and the line is too wide just when an operation in its tree comes to a value
that is not narrow. -/
theorem isNarrow_unless_number (source : Source σ) (state : σ) (offered : Bindings Scalar)
    (limits : Limits) (line : String) :
    (∀ evaluation progress, ofLine source state offered limits line = .ok evaluation progress →
      (IsNarrow evaluation.total ↔
          ∀ number ∈ evaluation.expression.number?, IsNarrow number) ∧
        ∀ number ∈ evaluation.expression.number?, evaluation.total = number) ∧
    ∀ expression evaluator, Expression.ofString line = .ok expression →
      Evaluator.prepare offered limits = .ok evaluator →
      evaluator.BindsNarrow ∧
        ∀ progress,
          ofLine source state offered limits line =
              .error (.interrupted (.evaluation .tooWide)) progress ↔
            ∃ value, evaluator.Computes source expression { source := state } value progress ∧
              ¬ IsNarrow value := by
  refine ⟨fun evaluation progress h ↦ total_isNarrow_iff h,
    fun expression evaluator hread hprepare ↦ ?_⟩
  refine ⟨(Evaluator.bindsNarrow_of_prepare hprepare).2, fun progress ↦ ?_⟩
  rw [← Evaluator.evaluate_eq_tooWide_iff, ofLine_of_ok hread hprepare,
    ofExpression_eq_error_iff]
  rfl

/-- The total of `(2 + 3) * 7` is narrow, and one more than the longest number of a line is too
wide. -/
theorem isNarrow_unless_number_sums :
    let five : Expression :=
      .sum (.ofTerm (.ofFactor (.ofValue (.number 2)))) .add (.ofFactor (.ofValue (.number 3)))
    let expression : Expression :=
      .ofTerm (.product (.ofFactor (.ofValue (.parentheses five))) .multiply
        (.ofValue (.number 7)))
    let wide : Expression :=
      .sum (.ofTerm (.ofFactor (.ofValue (.number longest)))) .add
        (.ofFactor (.ofValue (.number 1)))
    (ofLine Generator.source (.fixed 1) .empty {} "(2 + 3) * 7" =
        .ok ⟨"(2 + 3) * 7", expression, 35, []⟩ { source := .fixed 1 } ∧ IsNarrow 35) ∧
      Expression.ofString wide.render = .ok wide ∧
      ofLine Generator.source (.fixed 1) .empty {} wide.render =
        .error (.interrupted (.evaluation .tooWide)) { source := .fixed 1 } := by
  intro five expression wide
  let evaluator : Evaluator := ⟨.empty, {}⟩
  have hsmall (value : Int) (h : value.natAbs < 2 ^ 6) : IsNarrow value :=
    (narrow_eq_ok_iff.1 (narrow_of_natAbs_lt (by decide : 6 ≤ maxBits) h)).2
  have hfive (progress : Progress Generator) :
      evaluator.evaluate Generator.source five progress = .ok 5 progress :=
    Step.bind_eq_ok_iff.2 ⟨2, progress, rfl, Step.bind_eq_ok_iff.2 ⟨3, progress, rfl,
      Evaluator.apply_eq_ok_iff.2 ⟨rfl, hsmall 5 (by decide)⟩⟩⟩
  have hrun : evaluator.run Generator.source expression (.fixed 1) =
      .ok 35 { source := .fixed 1 } :=
    Step.bind_eq_ok_iff.2 ⟨5, _, hfive _, Step.bind_eq_ok_iff.2 ⟨7, _, rfl,
      Evaluator.apply_eq_ok_iff.2 ⟨rfl, hsmall 35 (by decide)⟩⟩⟩
  have hread : Expression.ofString "(2 + 3) * 7" = .ok expression := by decide +kernel
  have hline : ofLine Generator.source (.fixed 1) .empty {} "(2 + 3) * 7" =
      .ok ⟨"(2 + 3) * 7", expression, 35, []⟩ { source := .fixed 1 } :=
    ofLine_eq_ok_iff.2 ⟨expression, evaluator, 35, hread, rfl, hrun, rfl⟩
  have hwideRead : Expression.ofString wide.render = .ok wide :=
    Expression.ofLine_render
      ⟨readable_longest, rfl, Int.zero_le_ofNat 1, Nat.one_lt_pow (by decide) (by decide)⟩
      (Nat.zero_le Reading.maxNesting)
  have hproduct := (isNarrow_unless_number Generator.source (.fixed 1) .empty {} "(2 + 3) * 7").1
  have hsum := (isNarrow_unless_number Generator.source (.fixed 1) .empty {} wide.render).2
  exact ⟨⟨hline, (hproduct _ _ hline).1.2 nofun⟩, hwideRead,
    ((hsum wide evaluator hwideRead rfl).2 _).2
      ⟨longest + 1, .inr ⟨longest, _, rfl, .inr ⟨1, _, rfl, rfl⟩⟩,
        not_isNarrow_of_longest_le (Int.le_add_one (Int.le_refl longest))⟩⟩

/-- The longest number that a line can hold is a total that is not narrow. -/
theorem longest_not_isNarrow :
    let expression : Expression := .ofTerm (.ofFactor (.ofValue (.number longest)))
    ofLine Generator.source (.fixed 1) .empty {} (toString (longest : Int)) =
        .ok ⟨toString (longest : Int), expression, longest, []⟩ { source := .fixed 1 } ∧
      ¬ IsNarrow longest := by
  intro expression
  have hread : Expression.ofString expression.render = .ok expression :=
    Expression.ofLine_render readable_longest (Nat.zero_le Reading.maxNesting)
  exact ⟨ofLine_eq_ok_iff.2 ⟨expression, ⟨.empty, {}⟩, longest, hread, rfl, rfl, rfl⟩,
    not_isNarrow_of_longest_le (Int.le_refl longest)⟩

end Evaluation

end DiceArithmetic
