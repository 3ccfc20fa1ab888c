import DiceArithmetic.Proofs.Grammar.Completeness

/-!
# Which lines are read

A line is read if and only if it can be cut into tokens, the grammar derives a tree from those that
say something, and parentheses nest no deeper than allowed. The tree that is read is the derived
one, and there is no other. Read `ofTokens_eq_ok_iff` first, which says so about tokens.
-/

namespace DiceArithmetic

namespace Expression

variable {allowance : Allowance} {tokens : List Token} {expression : Expression}

/-- Tokens from which the grammar derives a tree are read as that tree. -/
theorem ofTokens_of_derives (hderives : Derives (tokens.map Token.lexeme) expression)
    (hadmits : allowance.Admits expression.nesting) :
    ofTokens allowance tokens = .ok expression := by
  have hreaches := Reading.reaches_of_derives hderives hadmits (List.append_nil tokens).symm rfl
  obtain ⟨hshorter, hexpression⟩ := hreaches.whole .nil
  rw [Reading.read] at hexpression
  rw [ofTokens, hexpression]

/-- The grammar derives from tokens the tree that they are read as. -/
theorem derives_of_ofTokens (hformed : ∀ token ∈ tokens, token.lexeme.WellFormed)
    (h : ofTokens allowance tokens = .ok expression) :
    Derives (tokens.map Token.lexeme) expression ∧ allowance.Admits expression.nesting := by
  rw [ofTokens] at h
  split at h
  next => cases h
  next node hshorter hexpression =>
      cases h
      obtain ⟨segment, hsegment, hderives, hadmits⟩ :=
        Reading.readExpression_sound allowance tokens hformed _ hexpression
      obtain rfl : tokens = segment := hsegment.trans (List.append_nil segment)
      exact ⟨hderives, hadmits⟩
  next => cases h

/-- Tokens are read as a tree exactly if the grammar derives it and the allowance admits it. -/
theorem ofTokens_eq_ok_iff (hformed : ∀ token ∈ tokens, token.lexeme.WellFormed) :
    ofTokens allowance tokens = .ok expression ↔
      Derives (tokens.map Token.lexeme) expression ∧ allowance.Admits expression.nesting := by
  constructor
  · exact derives_of_ofTokens hformed
  · rintro ⟨hderives, hadmits⟩
    exact ofTokens_of_derives hderives hadmits

theorem ofLine_of_significant {line : String}
    (h : (Lexed.ofString line).significant = .ok tokens) :
    ofLine allowance line =
      (ofTokens allowance tokens).mapError (.grammatical <| ·.toSyntaxError line) := by
  rw [ofLine, h]

/-- A line is read as a tree exactly if it can be cut into tokens and the grammar derives the tree
from them, within the allowance. -/
theorem ofLine_eq_ok_iff {line : String} :
    ofLine allowance line = .ok expression ↔
      ∃ tokens, (Lexed.ofString line).significant = .ok tokens ∧
        Derives (tokens.map Token.lexeme) expression ∧
        allowance.Admits expression.nesting := by
  cases hsignificant : (Lexed.ofString line).significant with
  | error error => simp [ofLine, hsignificant]
  | ok tokens =>
      have hformed (token : Token) (hmem : token ∈ tokens) : token.lexeme.WellFormed :=
        (Lexed.significant_wellFormed hsignificant token hmem).1
      have hkept : ofLine allowance line = .ok expression ↔
          ofTokens allowance tokens = .ok expression := by
        rw [ofLine_of_significant hsignificant]
        cases ofTokens allowance tokens <;> simp [Except.mapError]
      rw [hkept, ofTokens_eq_ok_iff hformed]
      simp

end Expression

namespace Derives

/-- No lexemes are an expression in two ways. -/
theorem unique_expression {lexemes : List Lexeme} {node other : Expression}
    (h : Derives lexemes node) (hother : Derives lexemes other) : node = other := by
  have hread {tree : Expression} (htree : Derives lexemes tree) :
      Expression.ofTokens none (lexemes.map (⟨·, .start⟩)) = .ok tree := by
    have hadmits : Allowance.Admits none tree.nesting := trivial
    refine Expression.ofTokens_of_derives ?_ hadmits
    simpa [Function.comp_def] using htree
  exact Except.ok.inj ((hread h).symm.trans (hread hother))

/-- No lexemes have two trees of one tier. -/
theorem unique {tier : Tier} {lexemes : List Lexeme} {node other : Node tier}
    (h : Derives lexemes node) (hother : Derives lexemes other) : node = other := by
  cases tier with
  | value => simpa using unique_expression h.ofValue.ofFactor.ofTerm hother.ofValue.ofFactor.ofTerm
  | factor => simpa using unique_expression h.ofFactor.ofTerm hother.ofFactor.ofTerm
  | term => simpa using unique_expression h.ofTerm hother.ofTerm
  | expression => exact unique_expression h hother

end Derives

/-- The nesting of a line is that of its tokens that say something. -/
theorem Lexed.nesting_eq {lexed : Lexed} {tokens : List Token}
    (h : lexed.significant = .ok tokens) :
    lexed.nesting = Lexeme.deepest 0 (tokens.map Token.lexeme) := by
  obtain ⟨-, rfl⟩ := significant_eq_ok_iff.1 h
  rw [nesting, ← Lexeme.deepest_filter, List.filter_map]
  rfl

/-- The parentheses of a line nest as deep as those of the tree that it is read as. -/
theorem Expression.nesting_of_ofLine {allowance : Allowance} {line : String}
    {expression : Expression} (h : ofLine allowance line = .ok expression) :
    (Lexed.ofString line).nesting = expression.nesting := by
  obtain ⟨tokens, hsignificant, hderives, -⟩ := ofLine_eq_ok_iff.1 h
  rw [Lexed.nesting_eq hsignificant, hderives.deepest_eq_nesting]

/-- A line whose parentheses nest no deeper than allowed is read as a tree exactly if it can be cut
into tokens and the grammar derives the tree from those that say something; and the grammar derives
no two trees from the same lexemes. -/
theorem ofString_eq_ok_iff_derives :
    (∀ (line : String) (expression : Expression),
      (Lexed.ofString line).nesting ≤ Reading.maxNesting →
      (Expression.ofString line = .ok expression ↔
        ∃ tokens, (Lexed.ofString line).significant = .ok tokens ∧
          Derives (tokens.map Token.lexeme) expression)) ∧
    (∀ {tier : Tier} (lexemes : List Lexeme) (node other : Node tier),
      Derives lexemes node → Derives lexemes other → node = other) := by
  refine ⟨?_, fun lexemes node other ↦ Derives.unique⟩
  intro line expression hnesting
  rw [Expression.ofString, Expression.ofLine_eq_ok_iff]
  constructor
  · rintro ⟨tokens, hsignificant, hderives, -⟩
    exact ⟨tokens, hsignificant, hderives⟩
  · rintro ⟨tokens, hsignificant, hderives⟩
    refine ⟨tokens, hsignificant, hderives, ?_⟩
    rw [Lexed.nesting_eq hsignificant, hderives.deepest_eq_nesting] at hnesting
    exact hnesting

/-- The letter `d` is read as a variable, as an operator and as a variable. -/
theorem ofString_eq_ok_iff_derives_letters :
    (Lexed.ofString "d d (d)").nesting ≤ Reading.maxNesting ∧
      ∃ tokens, (Lexed.ofString "d d (d)").significant = .ok tokens ∧
        Derives (tokens.map Token.lexeme)
          (.sum (.ofTerm (.ofFactor (.ofValue (.named "d")))) .roll
            (.ofFactor (.ofValue
              (.parentheses (.ofTerm (.ofFactor (.ofValue (.named "d")))))))) := by
  have hnesting : (Lexed.ofString "d d (d)").nesting ≤ Reading.maxNesting := by decide +kernel
  refine ⟨hnesting, (ofString_eq_ok_iff_derives.1 _ _ hnesting).1 ?_⟩
  decide +kernel

end DiceArithmetic
