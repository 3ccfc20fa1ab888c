import DiceArithmetic.Node.Reading
import DiceArithmetic.Text.Quoted

/-!
# Reports

What a user is told when a line cannot be read or evaluated. A report has a stable code, and a
message of one sentence that begins with the code in brackets. It may also be made by hand, about
any place, so places have integers where positions in a text have natural numbers.
-/

namespace DiceArithmetic

/-- The kinds of failed evaluation that reports tell apart. -/
inductive EvaluationFault where
  | undefinedVariable
  | divisionByZero
  | invalidDice
  | overflow
  | invalidVariable
  deriving DecidableEq, Repr

namespace EvaluationFault

/-- The code of a fault. -/
def code : EvaluationFault → String
  | .undefinedVariable => "UNDEFINED_VARIABLE"
  | .divisionByZero => "DIVISION_BY_ZERO"
  | .invalidDice => "INVALID_DICE_SPEC"
  | .overflow => "OVERFLOW"
  | .invalidVariable => "INVALID_VARIABLE"

/-- The fault in words. -/
def summary : EvaluationFault → String
  | .undefinedVariable => "No such variable"
  | .divisionByZero => "Division by zero"
  | .invalidDice => "Invalid dice roll"
  | .overflow => "Result is too large to represent"
  | .invalidVariable => "Not an integer variable"

/-- All faults. -/
def all : List EvaluationFault :=
  [.undefinedVariable, .divisionByZero, .invalidDice, .overflow, .invalidVariable]

/-- The fault that has this code. -/
def ofCode? (code : String) : Option EvaluationFault :=
  all.find? (·.code = code)

end EvaluationFault

/-- The place that a report is about. -/
structure Place where
  offset : Int
  line : Int
  column : Int
  deriving DecidableEq, Repr

/-- A position as a place. -/
def Position.place (position : Position) : Place :=
  ⟨position.offset, position.line, position.column⟩

/-- A place, as a sentence ends with it. -/
def Place.text (place : Place) : String :=
  s!"line {place.line}, column {place.column}"

/-- A report on a text in which no lexeme begins, on something found where something else was
expected, or on a failed evaluation, which may concern a name and may add a detail. -/
inductive Report where
  | lexical (place : Place) (text : String)
  | grammatical (place : Place) (expected found : String)
  | evaluation (fault : EvaluationFault) (name detail : Option String)
  deriving DecidableEq, Repr

namespace Report

/-- The code of a report. -/
def code : Report → String
  | .lexical .. => "LEX_ERROR"
  | .grammatical .. => "PARSE_ERROR"
  | .evaluation fault .. => fault.code

/-- The sentence of a report, without its full stop. A name stands between apostrophes as it is; an
empty detail is left out. -/
def sentence : Report → String
  | .lexical place text =>
      "Unrecognized input " ++ Text.quoted text ++ " at " ++ place.text
  | .grammatical place expected found =>
      "Expected " ++ expected ++ " but found " ++ found ++ " at " ++ place.text
  | .evaluation fault name detail =>
      let concerning := match name with
        | some name => " \x27" ++ name ++ "\x27"
        | none => ""
      let adding := match detail with
        | none | some "" => ""
        | some detail => ": " ++ detail
      fault.summary ++ concerning ++ adding

/-- The whole message of a report. -/
def message (report : Report) : String :=
  "[" ++ report.code ++ "] " ++ report.sentence ++ "."

end Report

/-- What is said to be expected. -/
def Obstacle.expected : Obstacle → String
  | .unexpected .operand _ => "number, identifier or \x27(\x27"
  | .unexpected .operator _ => "operator"
  | .unexpected .closing _ => "\x27)\x27"
  | .longNumber _ => s!"a number of at most {Reading.maxDigits} digits"
  | .deepNesting => "shallower nesting"

/-- What is said to have been found. -/
def Obstacle.found : Obstacle → String
  | .unexpected _ (some lexeme) => Text.quoted lexeme.text
  | .unexpected _ none => "end of input"
  | .longNumber digits => s!"{digits} digits"
  | .deepNesting => "too many nested parentheses"

/-- The report on a line that cannot be read. -/
def ReadingError.report : ReadingError → Report
  | .lexical error => .lexical error.position.place (String.singleton error.character)
  | .grammatical error =>
      .grammatical error.position.place error.obstacle.expected error.obstacle.found

end DiceArithmetic
