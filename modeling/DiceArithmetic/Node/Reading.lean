import DiceArithmetic.Node
import DiceArithmetic.Token

/-!
# Reading a tree

Reading goes by the grammar

```text
expression = term, { additive operator, term }
term       = factor, { multiplicative operator, factor }
factor     = value, [ "^", value ]
value      = number | identifier | "(", expression, ")"
```

with one function for each tier. Each takes the tokens that are left and returns a tree and the
tokens behind it, together with a proof that these are fewer; so reading ends without a limit of any
kind. Parentheses may nest as deep as an allowance says, and an absent allowance sets no bound.
-/

namespace DiceArithmetic

/-- What a place in an expression calls for. -/
inductive Wanted where
  | operand
  | operator
  | closing
  deriving DecidableEq, Repr

/-- Why tokens are no expression: something else was wanted than the lexeme found, or than the end
of the line; a number has too many digits; parentheses nest too deep. -/
inductive Obstacle where
  | unexpected (wanted : Wanted) (found : Option Lexeme)
  | longNumber (digits : Nat)
  | deepNesting
  deriving DecidableEq, Repr

/-- An obstacle at its place in the line. -/
structure SyntaxError where
  position : Position
  obstacle : Obstacle
  deriving DecidableEq, Repr

/-- Why a line cannot be read. -/
inductive ReadingError where
  | lexical (error : LexicalError)
  | grammatical (error : SyntaxError)
  deriving DecidableEq, Repr

/-- Where reading stops: at an obstacle, with these tokens not yet read. -/
structure Stop where
  obstacle : Obstacle
  remaining : List Token
  deriving DecidableEq, Repr

namespace Stop

/-- Something else was wanted than the first of these tokens. -/
def unexpected (wanted : Wanted) (remaining : List Token) : Stop :=
  ⟨.unexpected wanted (remaining.head?.map Token.lexeme), remaining⟩

/-- The error to report about a line. It stands at the first token not yet read, or at the end of
the line if there is none or if the nesting is at fault. -/
def toSyntaxError (line : String) (stop : Stop) : SyntaxError :=
  match stop.obstacle, stop.remaining with
  | .deepNesting, _ | _, [] => ⟨Position.after line.toList, stop.obstacle⟩
  | obstacle, token :: _ => ⟨token.start, obstacle⟩

end Stop

/-- How many more levels of parentheses may be opened; `none` is without bound. -/
abbrev Allowance := Option Nat

/-- The allowance inside one more pair of parentheses, if they may be opened. -/
def Allowance.inside? : Allowance → Option Allowance
  | none => some none
  | some 0 => none
  | some (levels + 1) => some (some levels)

/-- A tree read from the front of the tokens, and the fewer tokens behind it. -/
structure Reading (tier : Tier) (tokens : List Token) where
  node : Node tier
  rest : List Token
  rest_lt : rest.length < tokens.length

namespace Reading

/-- The most digits that a number may be written with. -/
def maxDigits : Nat :=
  3000

/-- How deep parentheses may nest in a line. -/
def maxNesting : Nat :=
  240

/-- The value of decimal digits. -/
def decimalValue (digits : String) : Nat :=
  Nat.ofDigitChars 10 digits.toList 0

mutual

/-- Reads a value. -/
def readValue (allowance : Allowance) (tokens : List Token) :
    Except Stop (Reading .value tokens) :=
  match tokens with
  | [] => .error (.unexpected .operand [])
  | token :: rest =>
      match token.lexeme with
      | .number digits =>
          if digits.length ≤ maxDigits then .ok ⟨.number (decimalValue digits), rest, by simp⟩
          else .error ⟨.longNumber digits.length, token :: rest⟩
      | .identifier name => .ok ⟨.named name, rest, by simp⟩
      | lexeme =>
          if lexeme = .punctuation '(' then
            match allowance.inside? with
            | none => .error ⟨.deepNesting, token :: rest⟩
            | some inside =>
                match readExpression inside rest with
                | .error stop => .error stop
                | .ok ⟨_, [], _⟩ => .error (.unexpected .closing [])
                | .ok ⟨inner, token :: behind, behind_lt⟩ =>
                    if token.lexeme = .punctuation ')' then
                      .ok ⟨.parentheses inner, behind, by simp only [List.length_cons] at *; omega⟩
                    else .error (.unexpected .closing (token :: behind))
          else .error (.unexpected .operand (token :: rest))
  termination_by 4 * tokens.length

/-- Reads a factor: a value, and what it is raised to if a caret follows. -/
def readFactor (allowance : Allowance) (tokens : List Token) :
    Except Stop (Reading .factor tokens) :=
  match readValue allowance tokens with
  | .error stop => .error stop
  | .ok ⟨base, [], rest_lt⟩ => .ok ⟨.ofValue base, [], rest_lt⟩
  | .ok ⟨base, token :: rest, rest_lt⟩ =>
      if token.lexeme = .punctuation '^' then
        match readValue allowance rest with
        | .error stop => .error stop
        | .ok ⟨exponent, behind, behind_lt⟩ =>
            .ok ⟨.power base exponent, behind, by simp only [List.length_cons] at *; omega⟩
      else .ok ⟨.ofValue base, token :: rest, rest_lt⟩
  termination_by 4 * tokens.length + 1
  decreasing_by
    · omega
    · simp only [List.length_cons] at *; omega

/-- Reads a term: a factor and the factors chained to it. -/
def readTerm (allowance : Allowance) (tokens : List Token) : Except Stop (Reading .term tokens) :=
  match readFactor allowance tokens with
  | .error stop => .error stop
  | .ok ⟨factor, rest, rest_lt⟩ => chainFactors allowance ⟨.ofFactor factor, rest, rest_lt⟩
  termination_by 4 * tokens.length + 2

/-- Chains to a term the factors that follow it. -/
def chainFactors {tokens : List Token} (allowance : Allowance) (left : Reading .term tokens) :
    Except Stop (Reading .term tokens) :=
  match left with
  | ⟨node, [], rest_lt⟩ => .ok ⟨node, [], rest_lt⟩
  | ⟨node, token :: rest, rest_lt⟩ =>
      match Operator.multiplicative? token.lexeme with
      | none => .ok ⟨node, token :: rest, rest_lt⟩
      | some op =>
          match readFactor allowance rest with
          | .error stop => .error stop
          | .ok ⟨right, behind, behind_lt⟩ =>
              chainFactors allowance ⟨.product node op right, behind, by
                simp only [List.length_cons] at *; omega⟩
  termination_by 4 * left.rest.length + 1
  decreasing_by all_goals simp only [List.length_cons] at *; omega

/-- Reads an expression: a term and the terms chained to it. -/
def readExpression (allowance : Allowance) (tokens : List Token) :
    Except Stop (Reading .expression tokens) :=
  match readTerm allowance tokens with
  | .error stop => .error stop
  | .ok ⟨term, rest, rest_lt⟩ => chainTerms allowance ⟨.ofTerm term, rest, rest_lt⟩
  termination_by 4 * tokens.length + 3

/-- Chains to an expression the terms that follow it. -/
def chainTerms {tokens : List Token} (allowance : Allowance) (left : Reading .expression tokens) :
    Except Stop (Reading .expression tokens) :=
  match left with
  | ⟨node, [], rest_lt⟩ => .ok ⟨node, [], rest_lt⟩
  | ⟨node, token :: rest, rest_lt⟩ =>
      match Operator.additive? token.lexeme with
      | none => .ok ⟨node, token :: rest, rest_lt⟩
      | some op =>
          match readTerm allowance rest with
          | .error stop => .error stop
          | .ok ⟨right, behind, behind_lt⟩ =>
              chainTerms allowance ⟨.sum node op right, behind, by
                simp only [List.length_cons] at *; omega⟩
  termination_by 4 * left.rest.length + 2
  decreasing_by all_goals simp only [List.length_cons] at *; omega

end

end Reading

namespace Expression

/-- Reads tokens as one expression, with none left behind it. -/
def ofTokens (allowance : Allowance) (tokens : List Token) : Except Stop Expression :=
  match Reading.readExpression allowance tokens with
  | .error stop => .error stop
  | .ok ⟨expression, [], _⟩ => .ok expression
  | .ok ⟨_, remaining, _⟩ => .error (.unexpected .operator remaining)

/-- Reads a line under an allowance for its parentheses. -/
def ofLine (allowance : Allowance) (line : String) : Except ReadingError Expression :=
  match (Lexed.ofString line).significant with
  | .error error => .error (.lexical error)
  | .ok tokens => (ofTokens allowance tokens).mapError (.grammatical <| ·.toSyntaxError line)

/-- Reads a line. -/
def ofString (line : String) : Except ReadingError Expression :=
  ofLine (some Reading.maxNesting) line

end Expression

end DiceArithmetic
