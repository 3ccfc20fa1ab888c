import DiceArithmetic.Evaluator

/-!
# Grouping

`Node.grouped` puts every operation of a tree between parentheses of its own, so that its operands
are values and neither precedence nor the order in a chain matters any more. A chain becomes nested
parentheses that lean to the left; see `Term.grouped_ofChain` and `Expression.grouped_ofChain`.
`Evaluator.evaluate_grouped` says that grouping makes no difference to an evaluation: the operands
are evaluated in the same order, and each check comes at the same point.
-/

namespace DiceArithmetic

namespace Node

/-- A value as a term of one factor. -/
def asTerm (value : Value) : Term :=
  .ofFactor (.ofValue value)

/-- A value as an expression of one term. -/
def asExpression (value : Value) : Expression :=
  .ofTerm value.asTerm

/-- Two values joined like factors, in parentheses. -/
def groupFactors (left : Value) (op : Operator) (right : Value) : Value :=
  .parentheses (.ofTerm (.product left.asTerm op (.ofValue right)))

/-- Two values joined like terms, in parentheses. -/
def groupTerms (left : Value) (op : Operator) (right : Value) : Value :=
  .parentheses (.sum left.asExpression op right.asTerm)

/-- The tree with every operation in parentheses of its own. -/
def grouped {tier : Tier} : Node tier → Value
  | .number value => .number value
  | .named name => .named name
  | .parentheses inner => .parentheses inner.grouped.asExpression
  | .ofValue value => value.grouped
  | .power base exponent =>
      .parentheses (.ofTerm (.ofFactor (.power base.grouped exponent.grouped)))
  | .ofFactor factor => factor.grouped
  | .product left op right => groupFactors left.grouped op right.grouped
  | .ofTerm term => term.grouped
  | .sum left op right => groupTerms left.grouped op right.grouped

/-- The tree is a number, a variable or in parentheses, at whatever tier. -/
def IsOperand {tier : Tier} : Node tier → Prop
  | .number _ | .named _ | .parentheses _ | .ofValue _ => True
  | .ofFactor factor => factor.IsOperand
  | .ofTerm term => term.IsOperand
  | .power .. | .product .. | .sum .. => False

/-- No operand of an operator is an operation outside parentheses. Of a power none can be. -/
def IsGrouped {tier : Tier} : Node tier → Prop
  | .number _ | .named _ => True
  | .parentheses inner => inner.IsGrouped
  | .ofValue value => value.IsGrouped
  | .power base exponent => base.IsGrouped ∧ exponent.IsGrouped
  | .ofFactor factor => factor.IsGrouped
  | .product left _ right =>
      (left.IsOperand ∧ left.IsGrouped) ∧ right.IsOperand ∧ right.IsGrouped
  | .ofTerm term => term.IsGrouped
  | .sum left _ right =>
      (left.IsOperand ∧ left.IsGrouped) ∧ right.IsOperand ∧ right.IsGrouped

theorem isGrouped_grouped {tier : Tier} (node : Node tier) : node.grouped.IsGrouped := by
  induction node with
  | number | named => trivial
  | parentheses _ ih | ofValue _ ih | ofFactor _ ih | ofTerm _ ih => exact ih
  | power _ _ ihBase ihExponent => exact ⟨ihBase, ihExponent⟩
  | product _ _ _ ihLeft ihRight | sum _ _ _ ihLeft ihRight =>
      exact ⟨⟨trivial, ihLeft⟩, trivial, ihRight⟩

end Node

namespace Term

/-- A chain of factors: the first one, and the others each behind its operator. -/
def ofChain (first : Factor) (links : List (Operator × Factor)) : Term :=
  links.foldl (fun left link ↦ .product left link.1 link.2) (.ofFactor first)

/-- A chain of factors is grouped from left to right. -/
theorem grouped_ofChain (first : Factor) (links : List (Operator × Factor)) :
    (ofChain first links).grouped =
      links.foldl (fun left link ↦ Node.groupFactors left link.1 link.2.grouped)
        first.grouped :=
  (List.foldl_hom Node.grouped fun _ _ ↦ rfl).symm

end Term

namespace Expression

/-- A chain of terms: the first one, and the others each behind its operator. -/
def ofChain (first : Term) (links : List (Operator × Term)) : Expression :=
  links.foldl (fun left link ↦ .sum left link.1 link.2) (.ofTerm first)

/-- A chain of terms is grouped from left to right. -/
theorem grouped_ofChain (first : Term) (links : List (Operator × Term)) :
    (ofChain first links).grouped =
      links.foldl (fun left link ↦ Node.groupTerms left link.1 link.2.grouped)
        first.grouped :=
  (List.foldl_hom Node.grouped fun _ _ ↦ rfl).symm

end Expression

namespace Evaluator

variable {σ : Type} (evaluator : Evaluator) (source : Source σ)

/-- Grouping makes no difference to an evaluation. -/
theorem evaluate_grouped {tier : Tier} (node : Node tier) :
    evaluator.evaluate source node.grouped = evaluator.evaluate source node := by
  induction node with
  | number | named => rfl
  | parentheses _ ih | ofValue _ ih | ofFactor _ ih | ofTerm _ ih => exact ih
  | power base exponent ihBase ihExponent =>
      show (evaluator.evaluate source base.grouped >>= fun base ↦
        evaluator.evaluate source exponent.grouped >>= fun exponent ↦
          Step.ofExcept (DiceArithmetic.power base exponent)) = _
      rw [ihBase, ihExponent]
      rfl
  | product left op right ihLeft ihRight | sum left op right ihLeft ihRight =>
      show (evaluator.evaluate source left.grouped >>= fun left ↦
        evaluator.evaluate source right.grouped >>= fun right ↦
          evaluator.apply source op left right) = _
      rw [ihLeft, ihRight]
      rfl

/-- Evaluates operands one after the other, and applies each operator to the total so far. -/
def evaluateLinks {tier : Tier} (links : List (Operator × Node tier)) (total : Int) : Step σ Int :=
  links.foldlM
    (fun total link ↦ do evaluator.apply source link.1 total (← evaluator.evaluate source link.2))
    total

/-- What is joined link by link is evaluated link by link. -/
theorem evaluate_foldl {chain operand : Tier}
    (join : Node chain → Operator → Node operand → Node chain)
    (hjoin : ∀ left op right, evaluator.evaluate source (join left op right) = do
      let left ← evaluator.evaluate source left
      let right ← evaluator.evaluate source right
      evaluator.apply source op left right)
    (links : List (Operator × Node operand)) (first : Node chain) :
    evaluator.evaluate source (links.foldl (fun left link ↦ join left link.1 link.2) first) =
      evaluator.evaluate source first >>= evaluator.evaluateLinks source links := by
  induction links generalizing first with
  | nil => exact (bind_pure (evaluator.evaluate source first)).symm
  | cons link links ih =>
      rw [List.foldl_cons, ih, hjoin, bind_assoc]
      refine congrArg (evaluator.evaluate source first >>= ·) (funext fun total ↦ ?_)
      rw [evaluateLinks, List.foldlM_cons, bind_assoc, bind_assoc]
      rfl

/-- Grouping makes no difference to how an evaluation ends, and what is grouped has no operation
for an operand. A chain, of factors or of terms, is evaluated from left to right, link by link, and
it is grouped in the same way. -/
theorem run_grouped :
    (∀ (expression : Expression) (state : σ),
      evaluator.run source expression.grouped.asExpression state =
        evaluator.run source expression state) ∧
    (∀ expression : Expression, expression.grouped.IsGrouped) ∧
    (∀ (first : Factor) (links : List (Operator × Factor)),
      evaluator.evaluate source (Term.ofChain first links) =
          evaluator.evaluate source first >>= evaluator.evaluateLinks source links ∧
        (Term.ofChain first links).grouped =
          links.foldl (fun left link ↦ Node.groupFactors left link.1 link.2.grouped)
            first.grouped) ∧
    (∀ (first : Term) (links : List (Operator × Term)),
      evaluator.evaluate source (Expression.ofChain first links) =
          evaluator.evaluate source first >>= evaluator.evaluateLinks source links ∧
        (Expression.ofChain first links).grouped =
          links.foldl (fun left link ↦ Node.groupTerms left link.1 link.2.grouped)
            first.grouped) := by
  refine ⟨fun expression state ↦ ?_, fun expression ↦ expression.isGrouped_grouped,
    fun first links ↦ ⟨?_, Term.grouped_ofChain first links⟩,
    fun first links ↦ ⟨?_, Expression.grouped_ofChain first links⟩⟩
  · exact congrFun (evaluator.evaluate_grouped source expression) { source := state }
  · exact evaluator.evaluate_foldl source .product (fun _ _ _ ↦ rfl) links (.ofFactor first)
  · exact evaluator.evaluate_foldl source .sum (fun _ _ _ ↦ rfl) links (.ofTerm first)

end Evaluator

end DiceArithmetic
