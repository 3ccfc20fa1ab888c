import DiceArithmetic.Proofs.Evaluation.Grouping
import DiceArithmetic.Proofs.Evaluation.Width

/-!
# Variables and their values

A variable means its value: `Node.substitute` puts the values of the bound variables into a tree,
and `Evaluator.evaluate_substitute` says that the tree is evaluated as before, now without the
variables. Since the variables of an evaluator are narrow, their values can be written in a line. So
the same holds of whole lines; see `Evaluation.ofLine_substitute`.
-/

namespace DiceArithmetic

namespace Node

/-- An integer as a line can hold it: a number, which a negative integer takes away from zero. -/
def ofInt (value : Int) : Value :=
  if value < 0 then groupTerms (.number 0) .subtract (.number value.natAbs) else .number value

/-- The tree with the values of the bound variables in their places. -/
def substitute {tier : Tier} (bindings : Bindings Int) : Node tier → Node tier
  | .number value => .number value
  | .named name =>
      match bindings.get? name with
      | some value => ofInt value
      | none => .named name
  | .parentheses inner => .parentheses (inner.substitute bindings)
  | .ofValue value => .ofValue (value.substitute bindings)
  | .power base exponent => .power (base.substitute bindings) (exponent.substitute bindings)
  | .ofFactor factor => .ofFactor (factor.substitute bindings)
  | .product left op right =>
      .product (left.substitute bindings) op (right.substitute bindings)
  | .ofTerm term => .ofTerm (term.substitute bindings)
  | .sum left op right => .sum (left.substitute bindings) op (right.substitute bindings)

/-- An integer takes one pair of parentheses at most. -/
theorem nesting_ofInt_le (value : Int) : (ofInt value).nesting ≤ 1 := by
  unfold ofInt
  split
  · exact Nat.le_refl 1
  · exact Nat.zero_le 1

/-- With the values of variables in it, a tree nests one level deeper at most. -/
theorem nesting_substitute_le (bindings : Bindings Int) {tier : Tier} (node : Node tier) :
    (node.substitute bindings).nesting ≤ node.nesting + 1 := by
  induction node with
  | number => exact Nat.zero_le _
  | named name =>
      unfold substitute
      split
      next value _ => exact nesting_ofInt_le value
      next => exact Nat.zero_le _
  | parentheses _ ih => exact Nat.succ_le_succ ih
  | ofValue _ ih | ofFactor _ ih | ofTerm _ ih => exact ih
  | power _ _ ihFirst ihSecond | product _ _ _ ihFirst ihSecond | sum _ _ _ ihFirst ihSecond =>
      simp only [substitute, nesting]
      omega

/-- A line can hold a narrow integer. -/
theorem readable_ofInt {value : Int} (h : IsNarrow value) : (ofInt value).Readable := by
  have hsmall : value.natAbs < 10 ^ Reading.maxDigits := Nat.lt_trans h two_pow_maxBits_lt
  unfold ofInt
  split
  next =>
      refine ⟨⟨Int.le_refl 0, Nat.pow_pos (by decide)⟩, rfl, Int.natCast_nonneg _, ?_⟩
      rwa [Int.natAbs_natCast]
  next hnonnegative => exact ⟨Int.not_lt.1 hnonnegative, hsmall⟩

/-- A line can hold a tree with the values of narrow variables in it. -/
theorem Readable.substitute {bindings : Bindings Int}
    (hbinds : ∀ name, ∀ value ∈ bindings.get? name, IsNarrow value) {tier : Tier}
    {node : Node tier} (h : node.Readable) : (node.substitute bindings).Readable := by
  induction node with
  | number => exact h
  | named name =>
      unfold Node.substitute
      split
      next value hvalue => exact readable_ofInt (hbinds name value hvalue)
      next => exact h
  | parentheses _ ih | ofValue _ ih | ofFactor _ ih | ofTerm _ ih => exact ih h
  | power _ _ ihBase ihExponent => exact ⟨ihBase h.1, ihExponent h.2⟩
  | product _ _ _ ihLeft ihRight | sum _ _ _ ihLeft ihRight =>
      exact ⟨ihLeft h.1, h.2.1, ihRight h.2.2⟩

end Node

namespace Evaluator

variable {σ : Type}

/-- The evaluator without its variables. -/
def unbound (evaluator : Evaluator) : Evaluator :=
  { evaluator with bindings := .empty }

/-- A narrow integer is evaluated to itself. -/
theorem evaluate_ofInt (evaluator : Evaluator) (source : Source σ) {value : Int}
    (h : IsNarrow value) : evaluator.evaluate source (Node.ofInt value) = pure value := by
  unfold Node.ofInt
  split
  next hnegative =>
      have hvalue : 0 - (value.natAbs : Int) = value := by omega
      simp only [Node.groupTerms, Node.asExpression, Node.asTerm, evaluate, pure_bind]
      rw [apply, combine, pure_bind, hvalue, narrow_of_isNarrow h]
      rfl
  next => rfl

/-- A tree is evaluated in the same way with the values of the variables in their places. -/
theorem evaluate_substitute {evaluator : Evaluator} (hbinds : evaluator.BindsNarrow)
    (source : Source σ) {tier : Tier} (node : Node tier) :
    evaluator.unbound.evaluate source (node.substitute evaluator.bindings) =
      evaluator.evaluate source node := by
  induction node with
  | number => rfl
  | named name =>
      rw [Node.substitute, evaluate, lookUp]
      cases hvalue : evaluator.bindings.get? name with
      | some value => exact evaluate_ofInt _ source (hbinds name value hvalue)
      | none => rfl
  | parentheses _ ih | ofValue _ ih | ofFactor _ ih | ofTerm _ ih => exact ih
  | power base exponent ihBase ihExponent =>
      rw [Node.substitute, evaluate, evaluate, ihBase, ihExponent]
  | product left op right ihLeft ihRight | sum left op right ihLeft ihRight =>
      rw [Node.substitute, evaluate, evaluate, ihLeft, ihRight]
      rfl

end Evaluator

namespace Evaluation

variable {σ : Type}

/-- The same total, rolls and progress, or the same failure, for another line and its tree. -/
def relabel (line : String) (expression : Expression) :
    EStateM.Result Failure (Progress σ) Evaluation → EStateM.Result Failure (Progress σ) Evaluation
  | .ok evaluation progress => .ok { evaluation with line, expression } progress
  | .error failure progress => .error failure progress

/-- Take a line whose parentheses could nest one level deeper, and variables that are accepted. The
line with the values of the variables in their places, in normal form, is read as the tree with
these values in it, and without the variables it has the same total, rolls and progress, or the same
failure. -/
theorem ofLine_substitute {line : String} {expression : Expression} {offered : Bindings Scalar}
    {limits : Limits} {evaluator : Evaluator} (hread : Expression.ofString line = .ok expression)
    (hnesting : (Lexed.ofString line).nesting < Reading.maxNesting)
    (haccepted : Evaluator.prepare offered limits = .ok evaluator) :
    let replaced := expression.substitute evaluator.bindings
    Expression.ofString replaced.render = .ok replaced ∧
      ∀ {σ : Type} (source : Source σ) (state : σ),
        ofLine source state .empty limits replaced.render =
          relabel replaced.render replaced (ofLine source state offered limits line) := by
  intro replaced
  obtain ⟨rfl, hbinds⟩ := Evaluator.bindsNarrow_of_prepare haccepted
  have hreplaced : Expression.ofString replaced.render = .ok replaced := by
    refine Expression.ofLine_render ?_ ?_
    · exact (Expression.readable_of_ofLine hread).1.substitute hbinds
    · rw [Expression.nesting_of_ofLine hread] at hnesting
      exact Nat.le_trans (expression.nesting_substitute_le evaluator.bindings) hnesting
  refine ⟨hreplaced, fun source state ↦ ?_⟩
  have hrun : evaluator.unbound.run source replaced state = evaluator.run source expression state :=
    congrFun (Evaluator.evaluate_substitute hbinds source expression) { source := state }
  have hunbound : Evaluator.prepare .empty evaluator.limits = .ok evaluator.unbound := rfl
  rw [ofLine_of_ok hreplaced hunbound, ofLine_of_ok hread haccepted, ofExpression, ofExpression,
    hrun]
  cases evaluator.run source expression state with
  | ok total progress => rfl
  | error interruption progress => rfl

/-- The values of `d` and `x` in `2^d d (d - x)`. -/
theorem ofLine_substitute_dice :
    let value (name : String) : Value := .named name
    let expression : Expression :=
      .sum (.ofTerm (.ofFactor (.power (.number 2) (value "d")))) .roll
        (.ofFactor (.ofValue (.parentheses
          (.sum (value "d").asExpression .subtract (value "x").asTerm))))
    let offered : Bindings Scalar := .ofList [("d", .integer 3), ("x", .integer (-2))]
    let evaluator : Evaluator := ⟨.ofList [("d", 3), ("x", -2)], {}⟩
    let replaced := expression.substitute evaluator.bindings
    (Expression.ofString "2^d d (d - x)" = .ok expression ∧
        (Lexed.ofString "2^d d (d - x)").nesting < Reading.maxNesting ∧
        Evaluator.prepare offered {} = .ok evaluator) ∧
      replaced.render = "2 ^ 3 d (3 - (0 - 2))" ∧
      Expression.ofString replaced.render = .ok replaced ∧
      ofLine Generator.source (.fixed 4) .empty {} replaced.render =
        relabel replaced.render replaced
          (ofLine Generator.source (.fixed 4) offered {} "2^d d (d - x)") := by
  intro value expression offered evaluator replaced
  have hread : Expression.ofString "2^d d (d - x)" = .ok expression := by decide +kernel
  have hnesting : (Lexed.ofString "2^d d (d - x)").nesting < Reading.maxNesting := by
    decide +kernel
  have haccepted : Evaluator.prepare offered {} = .ok evaluator := by decide +kernel
  obtain ⟨hreplaced, hsame⟩ := ofLine_substitute hread hnesting haccepted
  exact ⟨⟨hread, hnesting, haccepted⟩, by decide +kernel, hreplaced,
    hsame Generator.source (.fixed 4)⟩

end Evaluation

end DiceArithmetic
