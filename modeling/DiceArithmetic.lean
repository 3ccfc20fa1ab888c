import DiceArithmetic.Service
import DiceArithmetic.Session
import DiceArithmetic.Random.Generator
import DiceArithmetic.Proofs.Lexing
import DiceArithmetic.Proofs.Grammar
import DiceArithmetic.Proofs.Grammar.Soundness
import DiceArithmetic.Proofs.Grammar.Completeness
import DiceArithmetic.Proofs.Grammar.Acceptance
import DiceArithmetic.Proofs.NormalForm
import DiceArithmetic.Proofs.Decimal
import DiceArithmetic.Proofs.RoundTrip
import DiceArithmetic.Proofs.Evaluation.Composition
import DiceArithmetic.Proofs.Evaluation.Accounts
import DiceArithmetic.Proofs.Evaluation.Sources
import DiceArithmetic.Proofs.Evaluation.Replay
import DiceArithmetic.Proofs.Evaluation.Width
import DiceArithmetic.Proofs.Evaluation.Grouping
import DiceArithmetic.Proofs.Substitution
import DiceArithmetic.Proofs.NormalForm.Lexemes
import DiceArithmetic.Proofs.Evaluation.Pruning
import DiceArithmetic.Proofs.Lexing.Tokenization
import DiceArithmetic.Proofs.Variables
import DiceArithmetic.Proofs.Session.Snapshot
import DiceArithmetic.Proofs.Evaluation.Exhaustion
import DiceArithmetic.Proofs.Session.Script
import DiceArithmetic.Proofs.Grammar.Stages
import DiceArithmetic.Proofs.Grammar.Viability
import DiceArithmetic.Proofs.Grammar.Nesting
import DiceArithmetic.Proofs.Grammar.Descent
import DiceArithmetic.Proofs.Grammar.Progress
import DiceArithmetic.Proofs.Positions
import DiceArithmetic.Proofs.Evaluation.Names
import DiceArithmetic.Proofs.Binary64.Rounding
import DiceArithmetic.Proofs.Binary64.Power
import DiceArithmetic.Proofs.Evaluation.Telling
import DiceArithmetic.Proofs.Evaluation.Powers
import DiceArithmetic.Proofs.Evaluation.Exactness
import DiceArithmetic.Proofs.Random.Masks
import DiceArithmetic.Proofs.Random.Stream
import DiceArithmetic.Proofs.Random.Rejection
import DiceArithmetic.Proofs.Evaluation.Faces
import DiceArithmetic.Proofs.Whitespace
import DiceArithmetic.Proofs.Comments
import DiceArithmetic.Proofs.Display
import DiceArithmetic.Proofs.Scalar
import DiceArithmetic.Proofs.Evaluation.Checking
import DiceArithmetic.Proofs.Evaluation.Digits
