import DiceArithmetic.Evaluator
import DiceArithmetic.Node.Rendering

/-!
# Evaluating a line

A line is read first; then the variables are checked, all of them; then the tree is evaluated. The
first thing that goes wrong is the failure.
-/

namespace DiceArithmetic

/-- Why a line has no evaluation. -/
inductive Failure where
  | reading (error : ReadingError)
  | interrupted (interruption : Interruption)
  deriving DecidableEq, Repr

/-- The report on a failure, unless it cannot be told or it is the source that failed. -/
def Failure.report? : Failure → Option Report
  | .reading error => some error.report
  | .interrupted (.evaluation error) => some error.report
  | .interrupted (.untold _) | .interrupted (.source _) => none

/-- A line with its tree, its total and the rolls that were made for it, in order. -/
structure Evaluation where
  line : String
  expression : Expression
  total : Int
  rolls : List DiceRoll
  deriving DecidableEq, Repr

namespace Evaluation

/-- The line in normal form. -/
def normalized (evaluation : Evaluation) : String :=
  evaluation.expression.render

/-- The line in normal form and its total. -/
def display (evaluation : Evaluation) : String :=
  evaluation.normalized ++ " = " ++ toString evaluation.total

variable {σ : Type}

/-- Evaluates a tree, which is that of the line. -/
def ofExpression (evaluator : Evaluator) (source : Source σ) (state : σ) (line : String)
    (expression : Expression) : EStateM.Result Failure (Progress σ) Evaluation :=
  match evaluator.run source expression state with
  | .ok total progress => .ok ⟨line, expression, total, progress.rolls.toList⟩ progress
  | .error interruption progress => .error (.interrupted interruption) progress

/-- Evaluates a line with the variables bound to what is offered. -/
def ofLine (source : Source σ) (state : σ) (offered : Bindings Scalar) (limits : Limits)
    (line : String) : EStateM.Result Failure (Progress σ) Evaluation :=
  match Expression.ofString line with
  | .error error => .error (.reading error) { source := state }
  | .ok expression =>
      match Evaluator.prepare offered limits with
      | .error error => .error (.interrupted (.evaluation error)) { source := state }
      | .ok evaluator => ofExpression evaluator source state line expression

theorem ofExpression_eq_error_iff {evaluator : Evaluator} {source : Source σ} {state : σ}
    {line : String} {expression : Expression} {interruption : Interruption}
    {progress : Progress σ} :
    ofExpression evaluator source state line expression =
        .error (.interrupted interruption) progress ↔
      evaluator.run source expression state = .error interruption progress := by
  unfold ofExpression
  cases evaluator.run source expression state <;> simp

theorem ofLine_of_ok {source : Source σ} {state : σ} {offered : Bindings Scalar} {limits : Limits}
    {line : String} {expression : Expression} {evaluator : Evaluator}
    (hread : Expression.ofString line = .ok expression)
    (hprepare : Evaluator.prepare offered limits = .ok evaluator) :
    ofLine source state offered limits line =
      ofExpression evaluator source state line expression := by
  rw [ofLine, hread]
  dsimp only
  rw [hprepare]

/-- A line has an evaluation just when it is read, the variables are accepted and its tree can be
evaluated. -/
theorem ofLine_eq_ok_iff {source : Source σ} {state : σ} {offered : Bindings Scalar}
    {limits : Limits} {line : String} {evaluation : Evaluation} {progress : Progress σ} :
    ofLine source state offered limits line = .ok evaluation progress ↔
      ∃ expression evaluator total, Expression.ofString line = .ok expression ∧
        Evaluator.prepare offered limits = .ok evaluator ∧
        evaluator.run source expression state = .ok total progress ∧
        evaluation = ⟨line, expression, total, progress.rolls.toList⟩ := by
  constructor
  · intro h
    unfold ofLine at h
    split at h
    next => cases h
    next expression hread =>
        split at h
        next => cases h
        next evaluator hprepare =>
            unfold ofExpression at h
            split at h
            next total after hrun =>
                cases h
                exact ⟨expression, evaluator, total, hread, hprepare, hrun, rfl⟩
            next => cases h
  · rintro ⟨expression, evaluator, total, hread, hprepare, hrun, rfl⟩
    rw [ofLine_of_ok hread hprepare, ofExpression, hrun]

end Evaluation

end DiceArithmetic
