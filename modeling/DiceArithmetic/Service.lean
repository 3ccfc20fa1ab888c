import DiceArithmetic.Evaluation
import DiceArithmetic.Settings

/-!
# The roll service

Answers a request to evaluate a line under configured limits. Whatever is wrong with the request is
told in one message. What cannot be told is passed on, and so is a source that fails, which is not
the request's fault.
-/

namespace DiceArithmetic

namespace Service

/-- Why a request has no answer. -/
inductive Refusal where
  | message (text : String)
  | untold (error : EvaluationError)
  | source (error : SourceError)
  deriving DecidableEq, Repr

/-- What a failed evaluation means for a request. -/
def refusal : Failure → Refusal
  | .reading error => .message error.report.message
  | .interrupted (.evaluation error) => .message error.report.message
  | .interrupted (.untold error) => .untold error
  | .interrupted (.source error) => .source error

/-- Answers a request. -/
def answer {σ : Type} (settings : Settings) (source : Source σ) (state : σ)
    (offered : Bindings Scalar) (line : String) : Except Refusal Evaluation :=
  match Evaluation.ofLine source state offered settings.limits line with
  | .ok evaluation _ => .ok evaluation
  | .error failure _ => .error (refusal failure)

end Service

end DiceArithmetic
