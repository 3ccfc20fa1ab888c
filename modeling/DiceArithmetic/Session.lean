import DiceArithmetic.Evaluation

/-!
# Sessions

A session goes on for several commands with one source. Its caller keeps a dictionary of scalars and
may change it at any time; the evaluator sees a change only when it is rebuilt.
-/

namespace DiceArithmetic

/-- A source's state with the draws made so far, the caller's dictionary, and the evaluator. -/
structure Session (σ : Type) where
  recorded : Recorded σ
  dictionary : Bindings Scalar
  evaluator : Evaluator

/-- What a session can be told to do: evaluate a line and answer its total, or its total and its
rolls; draw an integer; change the dictionary; build the evaluator from the dictionary; build it
from its own variables under other limits. -/
inductive Command where
  | total (line : String)
  | rolls (line : String)
  | draw (low high : Int)
  | set (name : String) (value : Scalar)
  | delete (name : String)
  | rebuild
  | limit (limits : Limits)
  deriving DecidableEq, Repr

/-- What a session answers: a total, a total with its rolls, an integer drawn, the evaluator's
variables sorted by name, or a failure. -/
inductive Answer where
  | total (value : Int)
  | rolls (total : Int) (rolls : List DiceRoll)
  | drawn (value : Int)
  | bindings (sorted : List (String × Int))
  | failed (failure : Failure)
  deriving DecidableEq, Repr

namespace Session

variable {σ : Type}

/-- A session with an evaluator built from the dictionary, if it can be built. -/
def start (state : σ) (dictionary : Bindings Scalar) (limits : Limits) :
    Except EvaluationError (Session σ) :=
  match Evaluator.prepare dictionary limits with
  | .error error => .error error
  | .ok evaluator => .ok ⟨{ state }, dictionary, evaluator⟩

/-- How many draws have been made. -/
def used (session : Session σ) : Nat :=
  session.recorded.draws.size

/-- The answer that shows the evaluator's variables. -/
def bindings (session : Session σ) : Answer :=
  .bindings session.evaluator.bindings.sorted

/-- Reads and evaluates a line with the evaluator as it is. -/
def evaluate (source : Source σ) (session : Session σ) (line : String) :
    EStateM.Result Failure (Session σ) Evaluation :=
  match Expression.ofString line with
  | .error error => .error (.reading error) session
  | .ok expression =>
      match
        Evaluation.ofExpression session.evaluator source.recording session.recorded line expression
      with
      | .ok evaluation progress => .ok evaluation { session with recorded := progress.source }
      | .error failure progress => .error failure { session with recorded := progress.source }

/-- Takes over a new evaluator if it could be built. -/
def adopt (session : Session σ) : Except EvaluationError Evaluator → Answer × Session σ
  | .error error => (.failed (.interrupted (.evaluation error)), session)
  | .ok evaluator =>
      let session := { session with evaluator }
      (session.bindings, session)

/-- Carries out a command. -/
def step (source : Source σ) (session : Session σ) : Command → Answer × Session σ
  | .total line =>
      match session.evaluate source line with
      | .ok evaluation session => (.total evaluation.total, session)
      | .error failure session => (.failed failure, session)
  | .rolls line =>
      match session.evaluate source line with
      | .ok evaluation session => (.rolls evaluation.total evaluation.rolls, session)
      | .error failure session => (.failed failure, session)
  | .draw low high =>
      match source.recording.draw low high session.recorded with
      | .ok value recorded => (.drawn value, { session with recorded })
      | .error error recorded =>
          (.failed (.interrupted (.source error)), { session with recorded })
  | .set name value =>
      (session.bindings, { session with dictionary := session.dictionary.set name value })
  | .delete name =>
      (session.bindings, { session with dictionary := session.dictionary.erase name })
  | .rebuild => session.adopt (Evaluator.prepare session.dictionary session.evaluator.limits)
  | .limit limits => session.adopt (session.evaluator.withLimits limits)

/-- Carries out commands in turn. Each answer comes with the number of draws made by then. -/
def steps (source : Source σ) (session : Session σ) :
    List Command → List (Answer × Nat) × Session σ
  | [] => ([], session)
  | command :: later =>
      let (answer, session) := session.step source command
      let (answers, final) := session.steps source later
      ((answer, session.used) :: answers, final)

end Session

end DiceArithmetic
