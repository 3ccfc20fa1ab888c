import DiceArithmetic.Evaluator

/-!
# How an evaluation is put together

An evaluation is made of three kinds of steps: a result that needs no source, a roll, and a step
after another. A relation between two steps that respects these holds between the evaluations of a
tree by two evaluators with the same variables, whatever their limits and sources; see
`Evaluator.evaluate_related`. Relations are graded by the number of rolls that the steps may make,
which for a tree is the number of its roll operators.

A roll in turn is made of draws, of notes in the trace and of a record. A relation that respects
these holds between evaluations too, if the limits are the same; see
`RespectsDraws.evaluate_related`. Dice are thrown only for rolls that the limits allow, so no draw
but from one to a positive number of sides needs to be respected.
-/

namespace DiceArithmetic

/-- The interruption is an error of the evaluation, whether it could be told or not. -/
def Interruption.IsOwn : Interruption → Prop
  | .evaluation _ | .untold _ => True
  | .source _ => False

theorem EvaluationError.isOwn_raised (error : EvaluationError) : error.raised.IsOwn := by
  unfold raised
  split <;> trivial

/-- The limits allow a roll of so many dice with so many sides. -/
structure Limits.Allow (limits : Limits) (count sides : Int) : Prop where
  count_nonneg : 0 ≤ count
  one_le_sides : 1 ≤ sides
  count_le : ∀ bound ∈ limits.maxDice, count ≤ bound
  sides_le : ∀ bound ∈ limits.maxSides, sides ≤ bound

/-- There is no bound that the integer exceeds just when it keeps to the bound. -/
theorem Limits.exceeded?_eq_none_iff {bound : Option Int} {value : Int} :
    exceeded? bound value = none ↔ ∀ limit ∈ bound, value ≤ limit := by
  rw [exceeded?, Option.filter_eq_none_iff]
  constructor
  · intro h limit hlimit
    have hnot := h limit hlimit
    simp only [decide_eq_true_eq] at hnot
    omega
  · intro h limit hlimit
    have hle := h limit hlimit
    simp only [decide_eq_true_eq]
    omega

/-- There is no objection to a roll just when the limits allow it. -/
theorem Limits.objection?_eq_none_iff {limits : Limits} {count sides : Int} :
    limits.objection? count sides = none ↔ limits.Allow count sides := by
  constructor
  · intro h
    unfold objection? at h
    split at h
    · contradiction
    · split at h
      · contradiction
      · rename_i hcount hsides
        split at h
        · contradiction
        · contradiction
        · rename_i hdice hfaces
          refine ⟨by omega, by omega, ?_, ?_⟩
          · exact exceeded?_eq_none_iff.mp hdice
          · exact exceeded?_eq_none_iff.mp hfaces
  · rintro ⟨hcount, hsides, hdice, hfaces⟩
    rw [objection?, if_neg (by omega), if_neg (by omega), exceeded?_eq_none_iff.mpr hdice,
      exceeded?_eq_none_iff.mpr hfaces]

/-- An integer with few binary digits is narrow. -/
theorem narrow_of_natAbs_lt {value : Int} {bits : Nat} (hbits : bits ≤ maxBits)
    (h : value.natAbs < 2 ^ bits) : narrow value = .ok value := by
  rw [narrow, if_pos]
  exact Nat.lt_of_lt_of_le h (Nat.pow_le_pow_right Nat.zero_lt_two hbits)

/-- How many rolls the operator makes. -/
def Operator.rollCount : Operator → Nat
  | .roll => 1
  | .add | .subtract | .multiply | .divide => 0

/-- How many roll operators a tree has. -/
def Node.rollCount {tier : Tier} : Node tier → Nat
  | .number _ | .named _ => 0
  | .parentheses inner => inner.rollCount
  | .ofValue value => value.rollCount
  | .power base exponent => base.rollCount + exponent.rollCount
  | .ofFactor factor => factor.rollCount
  | .product left op right => left.rollCount + right.rollCount + op.rollCount
  | .ofTerm term => term.rollCount
  | .sum left op right => left.rollCount + right.rollCount + op.rollCount

variable {σ τ : Type}

/-- A relation between steps that may make so many rolls respects how evaluations with these limits
and sources are put together. -/
structure RespectsRolls (limits otherLimits : Limits) (source : Source σ) (otherSource : Source τ)
    (related : Nat → Step σ Int → Step τ Int → Prop) : Prop where
  ofExcept (result : Except EvaluationError Int) : related 0 (.ofExcept result) (.ofExcept result)
  roll (count sides : Int) :
    related 1 (.roll source limits count sides) (.roll otherSource otherLimits count sides)
  bind {before behind : Nat} {first : Step σ Int} {otherFirst : Step τ Int}
    {next : Int → Step σ Int} {otherNext : Int → Step τ Int} :
    related before first otherFirst → (∀ value, related behind (next value) (otherNext value)) →
    related (before + behind) (first >>= next) (otherFirst >>= otherNext)

namespace Evaluator

variable {related : Nat → Step σ Int → Step τ Int → Prop} {evaluator other : Evaluator}
  {source : Source σ} {otherSource : Source τ}

/-- The results of one operator are related. -/
theorem apply_related
    (h : RespectsRolls evaluator.limits other.limits source otherSource related) (op : Operator)
    (left right : Int) :
    related op.rollCount (evaluator.apply source op left right)
      (other.apply otherSource op left right) := by
  -- The check of the width, which comes last, makes no roll.
  show related (op.rollCount + 0) _ _
  refine h.bind ?_ fun value ↦ h.ofExcept (narrow value)
  cases op with
  | add => exact h.ofExcept (.ok (left + right))
  | subtract => exact h.ofExcept (.ok (left - right))
  | multiply => exact h.ofExcept (.ok (left * right))
  | divide => exact h.ofExcept (quotient left right)
  | roll => exact h.roll left right

/-- The evaluations of a tree are related. -/
theorem evaluate_related
    (h : RespectsRolls evaluator.limits other.limits source otherSource related)
    (hbindings : evaluator.bindings = other.bindings) {tier : Tier} (node : Node tier) :
    related node.rollCount (evaluator.evaluate source node) (other.evaluate otherSource node) := by
  induction node with
  | number value => exact h.ofExcept (.ok value)
  | named name =>
      have hlookUp : evaluator.lookUp name = other.lookUp name := by
        rw [lookUp, lookUp, hbindings]
      rw [evaluate, evaluate, hlookUp]
      exact h.ofExcept (other.lookUp name)
  | parentheses _ ih | ofValue _ ih | ofFactor _ ih | ofTerm _ ih => exact ih
  | power base exponent ihBase ihExponent =>
      refine h.bind ihBase fun base ↦ ?_
      exact h.bind ihExponent fun exponent ↦ h.ofExcept (DiceArithmetic.power base exponent)
  | product left op right ihLeft ihRight | sum left op right ihLeft ihRight =>
      rw [Node.rollCount, Nat.add_assoc]
      refine h.bind ihLeft fun left ↦ ?_
      exact h.bind ihRight fun right ↦ apply_related h op left right

end Evaluator

/-- A relation between steps respects how rolls, and evaluations, with these sources are put
together. -/
structure RespectsDraws (source : Source σ) (otherSource : Source τ)
    (related : (α : Type) → Step σ α → Step τ α → Prop) : Prop where
  ofExcept {α : Type} (result : Except EvaluationError α) :
    related α (.ofExcept result) (.ofExcept result)
  note (event : TraceEvent) : related Unit (.note event) (.note event)
  record (roll : DiceRoll) : related Unit (.record roll) (.record roll)
  draw (sides : Int) :
    1 ≤ sides → related Int (.draw source 1 sides) (.draw otherSource 1 sides)
  bind {α β : Type} {first : Step σ α} {otherFirst : Step τ α} {next : α → Step σ β}
    {otherNext : α → Step τ β} :
    related α first otherFirst → (∀ value, related β (next value) (otherNext value)) →
    related β (first >>= next) (otherFirst >>= otherNext)

namespace RespectsDraws

variable {related : (α : Type) → Step σ α → Step τ α → Prop} {source : Source σ}
  {otherSource : Source τ}

/-- Throws of as many dice are related. -/
theorem throwDice_related (h : RespectsDraws source otherSource related) {sides : Int}
    (hsides : 1 ≤ sides) (count : Nat) (thrown : Array Int) :
    related (Array Int) (.throwDice source sides count thrown)
      (.throwDice otherSource sides count thrown) := by
  induction count generalizing thrown with
  | zero => exact h.ofExcept (.ok thrown)
  | succ count ih =>
      refine h.bind (h.draw sides hsides) fun face ↦ ?_
      exact h.bind (h.note (.face sides face)) fun _ ↦ ih (thrown.push face)

/-- Rolls under the same limits are related. -/
theorem roll_related (h : RespectsDraws source otherSource related) (limits : Limits)
    (count sides : Int) :
    related Int (.roll source limits count sides) (.roll otherSource limits count sides) := by
  unfold Step.roll
  cases hobjection : limits.objection? count sides with
  | some fault => exact h.ofExcept (.error (.invalidDice fault))
  | none =>
      have hsides := (Limits.objection?_eq_none_iff.mp hobjection).one_le_sides
      refine h.bind (h.note (.rolling count sides)) fun _ ↦ ?_
      refine h.bind (h.throwDice_related hsides count.toNat #[]) fun thrown ↦ ?_
      exact h.bind (h.record _) fun _ ↦ h.ofExcept (.ok thrown.toList.sum)

/-- A relation that respects draws respects rolls. -/
theorem respectsRolls (h : RespectsDraws source otherSource related) (limits : Limits) :
    RespectsRolls limits limits source otherSource fun _ ↦ related Int where
  ofExcept := h.ofExcept
  roll := h.roll_related limits
  bind := h.bind

/-- The evaluations of a tree are related. -/
theorem evaluate_related (h : RespectsDraws source otherSource related) (evaluator : Evaluator)
    {tier : Tier} (node : Node tier) :
    related Int (evaluator.evaluate source node) (evaluator.evaluate otherSource node) :=
  Evaluator.evaluate_related (h.respectsRolls evaluator.limits) rfl node

end RespectsDraws

end DiceArithmetic
