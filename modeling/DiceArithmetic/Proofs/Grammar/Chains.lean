import DiceArithmetic.Proofs.Grammar

/-!
# Chains

A term is a chain of factors, an expression is a chain of terms, and both are read alike. All that
tells them apart stands in `Reading.Chain`. `Reading.Chained` says how a chain goes on, for either of
them, and `Chain.goOn_chained` that the readers do this; so what is true of how chains are read is
shown once, case by case of `Chained`.
-/

namespace DiceArithmetic

namespace Reading

/-- Reads a part of the given tier. -/
def read : (tier : Tier) → Allowance → (tokens : List Token) → Except Stop (Reading tier tokens)
  | .value => readValue
  | .factor => readFactor
  | .term => readTerm
  | .expression => readExpression

/-- The tokens do not begin with a lexeme of this sort. -/
def BeginsWithout (sort : Lexeme → Bool) (tokens : List Token) : Prop :=
  ∀ token ∈ tokens.head?, sort token.lexeme = false

namespace BeginsWithout

variable {sort : Lexeme → Bool} {token : Token} {tokens : List Token}

theorem nil : BeginsWithout sort [] :=
  fun _ hmem ↦ nomatch hmem

theorem cons (h : sort token.lexeme = false) : BeginsWithout sort (token :: tokens) := by
  intro first hmem
  obtain rfl := Option.mem_some_iff.1 hmem
  exact h

end BeginsWithout

/-- The chains that there are, each with the tier of its operands and its own. -/
inductive Chain : (operand tier : Tier) → Type where
  | factors : Chain .factor .term
  | terms : Chain .term .expression

namespace Chain

variable {operand tier : Tier} {allowance : Allowance} {tokens : List Token}

/-- Whether an operator joins the operands of the chain. -/
def joins : Chain operand tier → Operator → Bool
  | factors => Operator.isMultiplicative
  | terms => Operator.isAdditive

/-- The operator joining operands of the chain that a lexeme can be read as. -/
def operator? : Chain operand tier → Lexeme → Option Operator
  | factors => Operator.multiplicative?
  | terms => Operator.additive?

/-- Whether a lexeme can be read as an operator joining operands of the chain. -/
def prolongs (chain : Chain operand tier) (lexeme : Lexeme) : Bool :=
  (chain.operator? lexeme).isSome

/-- A chain of one operand. -/
def lift : Chain operand tier → Node operand → Node tier
  | factors => .ofFactor
  | terms => .ofTerm

/-- A chain with one more operand. -/
def join : Chain operand tier → Node tier → Operator → Node operand → Node tier
  | factors => .product
  | terms => .sum

/-- Chains to what has been read the operands that follow it. -/
def goOn : Chain operand tier → Allowance → Reading tier tokens →
    Except Stop (Reading tier tokens)
  | factors => chainFactors
  | terms => chainTerms

theorem prolongs_eq_false_iff {chain : Chain operand tier} {lexeme : Lexeme} :
    chain.prolongs lexeme = false ↔ chain.operator? lexeme = none := by
  simp [prolongs]

theorem operator?_eq (chain : Chain operand tier) (lexeme : Lexeme) :
    chain.operator? lexeme = (Operator.ofLexeme? lexeme).filter chain.joins := by
  cases chain <;> rfl

theorem ofLexeme?_of_operator? {chain : Chain operand tier} {lexeme : Lexeme} {op : Operator}
    (h : chain.operator? lexeme = some op) : Operator.ofLexeme? lexeme = some op := by
  rw [operator?_eq] at h
  exact (Option.filter_eq_some_iff.1 h).1

theorem operator?_lexeme {chain : Chain operand tier} {op : Operator} (h : chain.joins op) :
    chain.operator? op.lexeme = some op := by
  rw [operator?_eq, Operator.ofLexeme?_lexeme, Option.filter_some, if_pos h]

/-- A well-formed lexeme that joins operands is the one that the operator is written as. -/
theorem eq_lexeme_of_operator? {chain : Chain operand tier} {lexeme : Lexeme} {op : Operator}
    (hformed : lexeme.WellFormed) (h : chain.operator? lexeme = some op) :
    lexeme = op.lexeme ∧ chain.joins op := by
  rw [operator?_eq] at h
  obtain ⟨hop, hjoins⟩ := Option.filter_eq_some_iff.1 h
  exact ⟨Operator.eq_lexeme_of_ofLexeme? hformed hop, hjoins⟩

theorem derives_lift (chain : Chain operand tier) {lexemes : List Lexeme} {node : Node operand}
    (h : Derives lexemes node) : Derives lexemes (chain.lift node) := by
  cases chain with
  | factors => exact h.ofFactor
  | terms => exact h.ofTerm

theorem derives_join {chain : Chain operand tier} {op : Operator} (hop : chain.joins op)
    {first second : List Lexeme} {left : Node tier} {right : Node operand}
    (hleft : Derives first left) (hright : Derives second right) :
    Derives (first ++ op.lexeme :: second) (chain.join left op right) := by
  cases chain with
  | factors => exact hleft.product hop hright
  | terms => exact hleft.sum hop hright

@[simp] theorem nesting_lift (chain : Chain operand tier) (node : Node operand) :
    (chain.lift node).nesting = node.nesting := by
  cases chain <;> rfl

@[simp] theorem nesting_join (chain : Chain operand tier) (left : Node tier) (op : Operator)
    (right : Node operand) :
    (chain.join left op right).nesting = max left.nesting right.nesting := by
  cases chain <;> rfl

/-- A chain is read by reading an operand and then whatever is chained to it. -/
theorem read_eq (chain : Chain operand tier) (allowance : Allowance) (tokens : List Token) :
    read tier allowance tokens =
      match read operand allowance tokens with
      | .error stop => .error stop
      | .ok ⟨first, rest, rest_lt⟩ => chain.goOn allowance ⟨chain.lift first, rest, rest_lt⟩ := by
  cases chain with
  | factors =>
      rw [read, read, readTerm]
      cases readFactor allowance tokens <;> rfl
  | terms =>
      rw [read, read, readExpression]
      cases readTerm allowance tokens <;> rfl

/-- A chain ends where no operator follows. -/
theorem goOn_of_beginsWithout (chain : Chain operand tier) {left : Reading tier tokens}
    (h : BeginsWithout chain.prolongs left.rest) : chain.goOn allowance left = .ok left := by
  obtain ⟨node, rest, rest_lt⟩ := left
  cases rest with
  | nil =>
      cases chain with
      | factors => rw [goOn, chainFactors]
      | terms => rw [goOn, chainTerms]
  | cons token behind =>
      have hnone := prolongs_eq_false_iff.1 (h token rfl)
      cases chain with
      | factors =>
          have hop : Operator.multiplicative? token.lexeme = none := hnone
          rw [goOn, chainFactors, hop]
      | terms =>
          have hop : Operator.additive? token.lexeme = none := hnone
          rw [goOn, chainTerms, hop]

/-- Behind an operator, an operand is read, and the chain goes on behind it. -/
theorem goOn_of_operator? {chain : Chain operand tier} {node : Node tier} {token : Token}
    {rest : List Token} {op : Operator} (h : chain.operator? token.lexeme = some op)
    (hshorter : (token :: rest).length < tokens.length) :
    chain.goOn allowance (⟨node, token :: rest, hshorter⟩ : Reading tier tokens) =
      match read operand allowance rest with
      | .error stop => .error stop
      | .ok ⟨right, behind, behind_lt⟩ =>
          chain.goOn allowance
            ⟨chain.join node op right, behind, behind_lt.trans (Nat.lt_of_succ_lt hshorter)⟩ := by
  cases chain with
  | factors =>
      have hop : Operator.multiplicative? token.lexeme = some op := h
      rw [goOn, chainFactors, hop, read]
      cases readFactor allowance rest <;> rfl
  | terms =>
      have hop : Operator.additive? token.lexeme = some op := h
      rw [goOn, chainTerms, hop, read]
      cases readTerm allowance rest <;> rfl

end Chain

/-- How a chain that has been read so far goes on: it ends where no operator follows; behind an
operator it stops where no operand can be read, and goes on with the operand that is read. -/
inductive Chained {operand tier : Tier} (chain : Chain operand tier) (allowance : Allowance)
    {tokens : List Token} : Reading tier tokens → Except Stop (Reading tier tokens) → Prop where
  | ends {left} : BeginsWithout chain.prolongs left.rest → Chained chain allowance left (.ok left)
  | stops {node token rest hshorter op stop} : rest.length < tokens.length →
      chain.operator? token.lexeme = some op → read operand allowance rest = .error stop →
      Chained chain allowance ⟨node, token :: rest, hshorter⟩ (.error stop)
  | goesOn {node token rest hshorter op right behind hbehind hfewer result} :
      rest.length < tokens.length → chain.operator? token.lexeme = some op →
      read operand allowance rest = .ok ⟨right, behind, hbehind⟩ →
      Chained chain allowance ⟨chain.join node op right, behind, hfewer⟩ result →
      Chained chain allowance ⟨node, token :: rest, hshorter⟩ result

/-- The readers of chains go on so. -/
theorem Chain.goOn_chained {operand tier : Tier} (chain : Chain operand tier)
    (allowance : Allowance) {tokens : List Token} (left : Reading tier tokens) :
    Chained chain allowance left (chain.goOn allowance left) := by
  -- Each turn leaves fewer tokens.
  induction hlength : left.rest.length using Nat.strongRecOn generalizing left with
  | ind length ih =>
      obtain ⟨node, rest, rest_lt⟩ := left
      cases rest with
      | nil =>
          rw [chain.goOn_of_beginsWithout .nil]
          exact .ends .nil
      | cons token rest =>
          cases hop : chain.operator? token.lexeme with
          | none =>
              have hends : BeginsWithout chain.prolongs (token :: rest) :=
                .cons (prolongs_eq_false_iff.2 hop)
              rw [chain.goOn_of_beginsWithout hends]
              exact .ends hends
          | some op =>
              have hfewer : rest.length < tokens.length := Nat.lt_of_succ_lt rest_lt
              rw [goOn_of_operator? hop]
              cases hread : read operand allowance rest with
              | error stop => exact .stops hfewer hop hread
              | ok right =>
                  refine .goesOn hfewer hop hread (ih right.rest.length ?_ _ rfl)
                  rw [← hlength]
                  exact Nat.lt_succ_of_lt right.rest_lt

end Reading

end DiceArithmetic
