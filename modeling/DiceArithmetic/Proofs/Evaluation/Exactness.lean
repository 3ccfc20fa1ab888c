import DiceArithmetic.Proofs.Binary64.Rounding
import DiceArithmetic.Proofs.Evaluation.Replay
import DiceArithmetic.Proofs.Evaluation.Width

/-!
# The bound on the width as a guard

`Evaluator.exactly` walks through a tree like `Evaluator.evaluate`, over integers of any width, with
quotients as rationals cut toward zero, and marks the result of each operator as it comes by.
`Walk.guarded` stops a walk at the first mark that is not narrow. It respects how walks are put
together, so the evaluation of a tree is the guarded exact walk: `Evaluator.guarded_exactly`. That is
all that the bound on the width does, see `Evaluator.run_guards_exactly`.
-/

namespace DiceArithmetic

variable {σ α β : Type}

/-- The result of an operator, and what had been done when it was known. -/
structure Mark (σ : Type) where
  value : Int
  progress : Progress σ

/-- A step, and the marks that it puts down on the way. -/
structure Walk (σ α : Type) where
  outcome : Step σ α
  marks : Progress σ → List (Mark σ)

namespace Walk

/-- A step without marks. -/
def ofStep (step : Step σ α) : Walk σ α where
  outcome := step
  marks _ := []

/-- A step that marks its result. -/
def marking (step : Step σ Int) : Walk σ Int where
  outcome := step
  marks before :=
    match step before with
    | .ok value after => [⟨value, after⟩]
    | .error .. => []

@[simp] theorem outcome_marking (step : Step σ Int) : (marking step).outcome = step :=
  rfl

/-- The marks of a walk and, unless it is interrupted, of another one from where it has led. -/
def marksBehind (first : Walk σ α) (next : α → Walk σ β) (before : Progress σ) : List (Mark σ) :=
  first.marks before ++
    match first.outcome before with
    | .ok value middle => (next value).marks middle
    | .error .. => []

instance : Monad (Walk σ) where
  pure value := ofStep (pure value)
  bind first next := ⟨first.outcome >>= fun value ↦ (next value).outcome, first.marksBehind next⟩

@[simp] theorem outcome_bind (first : Walk σ α) (next : α → Walk σ β) :
    (first >>= next).outcome = first.outcome >>= fun value ↦ (next value).outcome :=
  rfl

@[simp] theorem marks_bind (first : Walk σ α) (next : α → Walk σ β) :
    (first >>= next).marks = first.marksBehind next :=
  rfl

/-- The walk up to its first mark that is not narrow, where it fails. -/
def guarded (walk : Walk σ α) : Step σ α := fun before ↦
  match (walk.marks before).find? fun mark ↦ ¬ IsNarrow mark.value with
  | some mark => .error (.evaluation .tooWide) mark.progress
  | none => walk.outcome before

/-- A guarded mark is a check of the width. -/
theorem guarded_marking (step : Step σ Int) :
    (marking step).guarded = step >>= fun value ↦ .ofExcept (narrow value) := by
  funext before
  simp only [guarded, marking, Step.bind_apply]
  cases step before with
  | error interruption after => rfl
  | ok value after =>
      by_cases hnarrow : IsNarrow value
      · simp [hnarrow, narrow_of_isNarrow hnarrow]
      · simp [hnarrow, narrow_eq_error_iff.2 ⟨rfl, hnarrow⟩, EvaluationError.raised_tooWide]

/-- A guard around two walks in a row is a guard around each. -/
theorem guarded_bind (first : Walk σ α) (next : α → Walk σ β) :
    (first >>= next).guarded = first.guarded >>= fun value ↦ (next value).guarded := by
  funext before
  rw [Step.bind_apply]
  simp only [guarded, marks_bind, outcome_bind, marksBehind, List.find?_append, Step.bind_apply]
  cases (first.marks before).find? fun mark ↦ ¬ IsNarrow mark.value with
  | some mark => rfl
  | none => cases first.outcome before <;> rfl

end Walk

/-- The exact quotient as a rational, cut toward zero. -/
def exactQuotient (dividend divisor : Int) : Except EvaluationError Int :=
  if divisor = 0 then .error (.divisionByZero dividend)
  else .ok (truncated ((dividend : ℚ) / divisor))

theorem exactQuotient_eq_quotient (dividend divisor : Int) :
    exactQuotient dividend divisor = quotient dividend divisor := by
  rw [exactQuotient, quotient, truncated_div]

/-- A power in binary64, cut toward zero, whatever its width. -/
def unboundedPower (base exponent : Int) : Except EvaluationError Int :=
  match Binary64.power? base exponent with
  | some value => .ok value
  | none => .error (.powerOutOfRange base exponent)

namespace Evaluator

/-- The result of an operator over the integers. -/
def combineExactly (evaluator : Evaluator) (source : Source σ) (op : Operator) (left right : Int) :
    Step σ Int :=
  match op with
  | .add => pure (left + right)
  | .subtract => pure (left - right)
  | .multiply => pure (left * right)
  | .divide => .ofExcept (exactQuotient left right)
  | .roll => .roll source evaluator.limits left right

/-- The value of a tree over the integers. -/
def exactly (evaluator : Evaluator) (source : Source σ) {tier : Tier} : Node tier → Walk σ Int
  | .number value => pure value
  | .named name => .ofStep (.ofExcept (evaluator.lookUp name))
  | .parentheses inner => evaluator.exactly source inner
  | .ofValue value => evaluator.exactly source value
  | .power base exponent => do
      let base ← evaluator.exactly source base
      let exponent ← evaluator.exactly source exponent
      .marking (.ofExcept (unboundedPower base exponent))
  | .ofFactor factor => evaluator.exactly source factor
  | .product left op right => do
      let left ← evaluator.exactly source left
      let right ← evaluator.exactly source right
      .marking (evaluator.combineExactly source op left right)
  | .ofTerm term => evaluator.exactly source term
  | .sum left op right => do
      let left ← evaluator.exactly source left
      let right ← evaluator.exactly source right
      .marking (evaluator.combineExactly source op left right)

variable (evaluator : Evaluator) (source : Source σ)

theorem combineExactly_eq_combine (op : Operator) (left right : Int) :
    evaluator.combineExactly source op left right = evaluator.combine source op left right := by
  cases op with
  | divide => rw [combineExactly, combine, exactQuotient_eq_quotient]
  | add | subtract | multiply | roll => rfl

/-- A guarded operator is one that is checked. -/
theorem guarded_combineExactly (op : Operator) (left right : Int) :
    (Walk.marking (evaluator.combineExactly source op left right)).guarded =
      evaluator.apply source op left right := by
  rw [Walk.guarded_marking, combineExactly_eq_combine, apply]

/-- A guarded power is one that is checked. -/
theorem guarded_unboundedPower (base exponent : Int) :
    (Walk.marking (.ofExcept (unboundedPower base exponent) : Step σ Int)).guarded =
      .ofExcept (power base exponent) := by
  rw [Walk.guarded_marking]
  unfold unboundedPower power
  cases Binary64.power? base exponent with
  | some value => rw [Step.ofExcept, pure_bind]
  | none => rfl

/-- An evaluation is the guarded exact walk. -/
theorem guarded_exactly {tier : Tier} (node : Node tier) :
    (evaluator.exactly source node).guarded = evaluator.evaluate source node := by
  induction node with
  | number | named => rfl
  | parentheses _ ih | ofValue _ ih | ofFactor _ ih | ofTerm _ ih => rw [exactly, evaluate, ih]
  | power base exponent ihBase ihExponent =>
      rw [exactly, evaluate, Walk.guarded_bind, ihBase]
      refine congrArg _ (funext fun base ↦ ?_)
      rw [Walk.guarded_bind, ihExponent]
      exact congrArg _ (funext fun exponent ↦ guarded_unboundedPower base exponent)
  | product first op second ihFirst ihSecond | sum first op second ihFirst ihSecond =>
      rw [exactly, evaluate, Walk.guarded_bind, ihFirst]
      refine congrArg _ (funext fun left ↦ ?_)
      rw [Walk.guarded_bind, ihSecond]
      exact congrArg _ (funext fun right ↦ guarded_combineExactly evaluator source op left right)

variable {evaluator source}

/-- What holds of the results of variables, powers and operators, and of walks in a row, holds of
exact walks. -/
theorem exactly_holds {holds : Walk σ Int → Prop} (hnumber : ∀ value, holds (pure value))
    (hnamed : ∀ name, holds (.ofStep (.ofExcept (evaluator.lookUp name))))
    (hpower : ∀ base exponent, holds (.marking (.ofExcept (unboundedPower base exponent))))
    (hoperator : ∀ op left right, holds (.marking (evaluator.combineExactly source op left right)))
    (hbind : ∀ {first : Walk σ Int} {next : Int → Walk σ Int}, holds first →
      (∀ value, holds (next value)) → holds (first >>= next))
    {tier : Tier} (node : Node tier) : holds (evaluator.exactly source node) := by
  induction node with
  | number value => exact hnumber value
  | named name => exact hnamed name
  | parentheses _ ih | ofValue _ ih | ofFactor _ ih | ofTerm _ ih =>
      rw [exactly]
      exact ih
  | power base exponent ihBase ihExponent =>
      rw [exactly]
      exact hbind ihBase fun base ↦ hbind ihExponent fun exponent ↦ hpower base exponent
  | product first op second ihFirst ihSecond | sum first op second ihFirst ihSecond =>
      rw [exactly]
      exact hbind ihFirst fun left ↦ hbind ihSecond fun right ↦ hoperator op left right

end Evaluator

/-- A walk never has too wide a result itself. -/
def Walk.IsUnbounded (walk : Walk σ α) : Prop :=
  ∀ before after, walk.outcome before ≠ .error (.evaluation .tooWide) after

/-- An exact walk never has too wide a result. -/
theorem Evaluator.exactly_isUnbounded (evaluator : Evaluator) (source : Source σ) {tier : Tier}
    (node : Node tier) : (evaluator.exactly source node).IsUnbounded := by
  refine exactly_holds (fun _ _ _ ↦ nofun) (fun name ↦ ?_) (fun base exponent ↦ ?_)
    (fun op left right ↦ ?_) (fun {_ _} hfirst hnext ↦ ?_) node
  · intro before after h
    obtain ⟨hlookUp, -⟩ := Step.ofExcept_eq_evaluation_iff.1 h
    unfold lookUp at hlookUp
    split at hlookUp <;> cases hlookUp
  · intro before after h
    rw [Walk.outcome_marking, Step.ofExcept_eq_evaluation_iff] at h
    unfold unboundedPower at h
    split at h <;> cases h.1
  · intro before after h
    rw [Walk.outcome_marking, combineExactly_eq_combine] at h
    rcases fault_of_combine h with hfault | hfault <;> cases hfault
  · intro before after h
    rcases Step.bind_eq_error_iff.1 h with h | ⟨value, middle, -, h⟩
    · exact hfirst before after h
    · exact hnext value middle after h

/-- A mark that is not narrow, while all those before it are. -/
def Walk.FirstWide (walk : Walk σ α) (before : Progress σ) (mark : Mark σ) : Prop :=
  ∃ earlier later, walk.marks before = earlier ++ mark :: later ∧
    (∀ passed ∈ earlier, IsNarrow passed.value) ∧ ¬ IsNarrow mark.value

theorem Walk.find?_eq_some_iff {walk : Walk σ α} {before : Progress σ} {mark : Mark σ} :
    ((walk.marks before).find? fun mark ↦ ¬ IsNarrow mark.value) = some mark ↔
      walk.FirstWide before mark := by
  rw [List.find?_eq_some_iff_append, FirstWide]
  simp only [decide_not, Bool.not_eq_eq_eq_not, Bool.not_true, decide_eq_false_iff_not, Bool.not_not,
    decide_eq_true_eq]
  constructor
  · rintro ⟨hwide, earlier, later, hmarks, hnarrow⟩
    exact ⟨earlier, later, hmarks, hnarrow, hwide⟩
  · rintro ⟨earlier, later, hmarks, hnarrow, hwide⟩
    exact ⟨hwide, earlier, later, hmarks, hnarrow⟩

/-- A walk forgets nothing that was drawn, before it or on the way to any of its marks. -/
def Walk.Remembers (walk : Walk (Recorded σ) α) : Prop :=
  ∀ before, before.source.draws.toList <+: Step.drawn (walk.outcome before) ∧
    ∀ mark ∈ walk.marks before,
      mark.progress.source.draws.toList <+: Step.drawn (walk.outcome before)

/-- A walk with at most its result for a mark remembers what its step keeps. -/
theorem Walk.remembers_marking {step : Step (Recorded σ) Int}
    (h : ∀ before, before.source.draws.toList <+: Step.drawn (step before)) :
    (marking step).Remembers := by
  refine fun before ↦ ⟨h before, fun mark hmark ↦ ?_⟩
  unfold marking at hmark ⊢
  dsimp only at hmark ⊢
  cases hstep : step before with
  | ok value after =>
      rw [hstep] at hmark
      obtain rfl := List.mem_singleton.1 hmark
      exact List.prefix_rfl
  | error interruption after =>
      rw [hstep] at hmark
      cases hmark

theorem Walk.Remembers.bind {first : Walk (Recorded σ) α} {next : α → Walk (Recorded σ) β}
    (hfirst : first.Remembers) (hnext : ∀ value, (next value).Remembers) :
    (first >>= next).Remembers := by
  intro before
  obtain ⟨hbefore, hfirstMarks⟩ := hfirst before
  rw [marks_bind, outcome_bind, marksBehind, Step.bind_apply]
  cases hresult : first.outcome before with
  | error interruption after =>
      rw [hresult] at hbefore hfirstMarks
      dsimp only
      rw [List.append_nil]
      exact ⟨hbefore, hfirstMarks⟩
  | ok value middle =>
      rw [hresult] at hbefore hfirstMarks
      dsimp only
      obtain ⟨hmiddle, hnextMarks⟩ := hnext value middle
      refine ⟨hbefore.trans hmiddle, fun mark hmark ↦ ?_⟩
      rcases List.mem_append.1 hmark with hmark | hmark
      · exact (hfirstMarks mark hmark).trans hmiddle
      · exact hnextMarks mark hmark

/-- An exact walk remembers everything that was drawn. -/
theorem Evaluator.exactly_remembers (evaluator : Evaluator) (source : Source σ) {tier : Tier}
    (node : Node tier) : (evaluator.exactly source.recording node).Remembers := by
  have hresult (result : Except EvaluationError Int) (before : Progress (Recorded σ)) :
      before.source.draws.toList <+: Step.drawn (Step.ofExcept result before) := by
    cases result <;> exact List.prefix_rfl
  have hroll (count sides : Int) (before : Progress (Recorded σ)) :
      before.source.draws.toList <+:
        Step.drawn (Step.roll source.recording evaluator.limits count sides before) := by
    rw [isPrefix_drawn_iff_leaves]
    exact (source.recording_keeps _).respectsDraws.roll_related evaluator.limits count sides before
      List.prefix_rfl
  refine exactly_holds (fun _ _ ↦ ⟨List.prefix_rfl, nofun⟩)
    (fun name before ↦ ⟨hresult (evaluator.lookUp name) before, nofun⟩)
    (fun base exponent ↦ Walk.remembers_marking (hresult (unboundedPower base exponent)))
    (fun op left right ↦ Walk.remembers_marking ?_) (fun hfirst hnext ↦ hfirst.bind hnext) node
  rw [combineExactly_eq_combine]
  cases op with
  | add => exact hresult (.ok (left + right))
  | subtract => exact hresult (.ok (left - right))
  | multiply => exact hresult (.ok (left * right))
  | divide => exact hresult (quotient left right)
  | roll => exact hroll left right

/-- The bound on the width only guards exact arithmetic. What an evaluation comes to, exact
arithmetic comes to as well, with the same rolls and draws, and it fails in the same way, unless
some result is not narrow. The evaluation is too wide just when there is such a result, at the first
one, with the draws that exact arithmetic has made until then. -/
theorem Evaluator.run_guards_exactly (evaluator : Evaluator) (source : Source σ)
    (expression : Expression) (state : Recorded σ) :
    let before : Progress (Recorded σ) := { source := state }
    let exact := evaluator.exactly source.recording expression
    let checked := evaluator.run source.recording expression state
    (∀ total after, checked = .ok total after → exact.outcome before = .ok total after) ∧
      (∀ after, checked = .error (.evaluation .tooWide) after ↔
        ∃ mark, exact.FirstWide before mark ∧ mark.progress = after) ∧
      (∀ interruption after, checked = .error interruption after →
        interruption ≠ .evaluation .tooWide →
          exact.outcome before = .error interruption after) ∧
      ∀ mark ∈ exact.marks before,
        mark.progress.source.draws.toList <+: Step.drawn (exact.outcome before) := by
  intro before exact checked
  have hchecked : checked = exact.guarded before := by
    rw [guarded_exactly]
    rfl
  have hremembers := (evaluator.exactly_remembers source expression before).2
  unfold Walk.guarded at hchecked
  cases hfirst : (exact.marks before).find? fun mark ↦ ¬ IsNarrow mark.value with
  | some wide =>
      rw [hfirst] at hchecked
      rw [hchecked]
      refine ⟨nofun, fun after ↦ ?_, fun interruption after h hother ↦ ?_, hremembers⟩
      · simp only [← Walk.find?_eq_some_iff, hfirst]
        simp
      · cases h
        exact absurd rfl hother
  | none =>
      rw [hfirst] at hchecked
      dsimp only at hchecked
      rw [hchecked]
      refine ⟨fun _ _ ↦ id, fun after ↦ iff_of_false ?_ ?_, fun _ _ h _ ↦ h, hremembers⟩
      · exact evaluator.exactly_isUnbounded source.recording expression before after
      · simp only [← Walk.find?_eq_some_iff, hfirst]
        nofun

/-- A product is too wide before exact arithmetic goes on to divide it by zero. -/
theorem Evaluator.run_guards_exactly_quotient :
    let evaluator : Evaluator := { bindings := ⟨[], .nil⟩ }
    let wide : Term :=
      .product (.ofFactor (.ofValue (.number (2 ^ 9899)))) .multiply (.ofValue (.number 2))
    let expression : Expression := .ofTerm (.product wide .divide (.ofValue (.number 0)))
    let state : Recorded Generator := { state := .fixed 1 }
    (evaluator.exactly Generator.source.recording expression).outcome { source := state } =
        .error (.evaluation (.divisionByZero (2 ^ 9899 * 2))) { source := state } ∧
      evaluator.run Generator.source.recording expression state =
        .error (.evaluation .tooWide) { source := state } := by
  intro evaluator wide expression state
  have htellable : (EvaluationError.divisionByZero (2 ^ 9899 * 2)).IsTellable := by
    decide +kernel
  have hquotient : (evaluator.exactly Generator.source.recording expression).outcome
      { source := state } =
        .error (EvaluationError.divisionByZero (2 ^ 9899 * 2)).raised { source := state } :=
    rfl
  rw [EvaluationError.raised_of_isTellable htellable] at hquotient
  refine ⟨hquotient, ((evaluator.run_guards_exactly Generator.source expression state).2.1 _).2 ?_⟩
  exact ⟨⟨2 ^ 9899 * 2, { source := state }⟩, ⟨[], [], rfl, nofun, by decide +kernel⟩, rfl⟩

end DiceArithmetic
