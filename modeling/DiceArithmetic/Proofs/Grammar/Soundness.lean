import DiceArithmetic.Proofs.Grammar.Chains

/-!
# Readers follow the grammar

A reader returns a tree that the grammar derives from the tokens in front of those it leaves, and
that nests no deeper than its allowance admits. Each tier has its lemma, and chains have one for
both; read `Reading.Splits` first, which is what they all say.
-/

namespace DiceArithmetic

namespace Allowance

/-- Parentheses may nest this deep. -/
def Admits : Allowance → Nat → Prop
  | none, _ => True
  | some levels, depth => depth ≤ levels

theorem admits_zero (allowance : Allowance) : allowance.Admits 0 := by
  cases allowance with
  | none => trivial
  | some levels => exact Nat.zero_le levels

theorem admits_max {allowance : Allowance} {first second : Nat} :
    allowance.Admits (max first second) ↔ allowance.Admits first ∧ allowance.Admits second := by
  cases allowance with
  | none => simp [Admits]
  | some levels => exact Nat.max_le

/-- One level more is admitted if a pair of parentheses may be opened and the other levels are
admitted inside. -/
theorem admits_succ {allowance : Allowance} {depth : Nat} :
    allowance.Admits (depth + 1) ↔
      ∃ inside, allowance.inside? = some inside ∧ inside.Admits depth := by
  match allowance with
  | none | some 0 | some (levels + 1) => simp [Admits, inside?]

end Allowance

namespace Reading

/-- The tokens are those that the node is the tree of, and the rest behind them. The node nests as
deep as the allowance admits. -/
def Splits (allowance : Allowance) (tokens : List Token) {tier : Tier} (node : Node tier)
    (rest : List Token) : Prop :=
  ∃ segment, tokens = segment ++ rest ∧ Derives (segment.map Token.lexeme) node ∧
    allowance.Admits node.nesting

namespace Splits

variable {allowance : Allowance} {tokens rest : List Token}

/-- A tier that adds nothing to a node adds nothing to its tokens. -/
theorem lift {tier wider : Tier} {node : Node tier} {wrapped : Node wider}
    (h : Splits allowance tokens node rest)
    (hderives : ∀ {lexemes}, Derives lexemes node → Derives lexemes wrapped)
    (hnesting : wrapped.nesting = node.nesting) : Splits allowance tokens wrapped rest := by
  obtain ⟨segment, htokens, hnode, hadmits⟩ := h
  exact ⟨segment, htokens, hderives hnode, hnesting ▸ hadmits⟩

/-- Two nodes with a lexeme between them are joined. -/
theorem join {tier before behind : Tier} {left : Node before} {right : Node behind}
    {joined : Node tier} {between : Token} {middle : List Token}
    (hleft : Splits allowance tokens left (between :: middle))
    (hright : Splits allowance middle right rest)
    (hderives : ∀ {first second}, Derives first left → Derives second right →
      Derives (first ++ between.lexeme :: second) joined)
    (hnesting : joined.nesting = max left.nesting right.nesting) :
    Splits allowance tokens joined rest := by
  obtain ⟨first, rfl, hfirst, hadmitsFirst⟩ := hleft
  obtain ⟨second, rfl, hsecond, hadmitsSecond⟩ := hright
  refine ⟨first ++ between :: second, by simp, ?_, ?_⟩
  · rw [List.map_append, List.map_cons]
    exact hderives hfirst hsecond
  · rw [hnesting]
    exact Allowance.admits_max.2 ⟨hadmitsFirst, hadmitsSecond⟩

/-- The tokens behind a token in front are among the tokens. -/
theorem wellFormed_behind {tier : Tier} {node : Node tier} {between : Token} {behind : List Token}
    (h : Splits allowance tokens node (between :: behind))
    (hformed : ∀ token ∈ tokens, token.lexeme.WellFormed) :
    between.lexeme.WellFormed ∧ ∀ token ∈ behind, token.lexeme.WellFormed := by
  obtain ⟨segment, rfl, -⟩ := h
  exact List.forall_mem_cons.1 fun token hmem ↦ hformed token (List.mem_append_right _ hmem)

end Splits

/-- On these tokens a reader returns only what the grammar derives. -/
def SoundOn {tier : Tier} (allowance : Allowance)
    (reader : (tokens : List Token) → Except Stop (Reading tier tokens)) (tokens : List Token) :
    Prop :=
  (∀ token ∈ tokens, token.lexeme.WellFormed) → ∀ reading, reader tokens = .ok reading →
    Splits allowance tokens reading.node reading.rest

section Chain

variable {operand tier : Tier} {chain : Chain operand tier} {allowance : Allowance}
  {tokens : List Token}

/-- If operands are read soundly from fewer tokens, they are chained on soundly. -/
theorem Chained.sound {left : Reading tier tokens} {result : Except Stop (Reading tier tokens)}
    (h : Chained chain allowance left result)
    (hoperand : ∀ fewer, fewer.length < tokens.length →
      SoundOn allowance (read operand allowance) fewer)
    (hformed : ∀ token ∈ tokens, token.lexeme.WellFormed)
    (hleft : Splits allowance tokens left.node left.rest) {reading : Reading tier tokens}
    (hresult : result = .ok reading) : Splits allowance tokens reading.node reading.rest := by
  -- What has been read until then is derived, at every turn.
  induction h with
  | ends =>
      cases hresult
      exact hleft
  | stops => cases hresult
  | goesOn hfewer hop hread _ ih =>
      obtain ⟨htoken, hrest⟩ := hleft.wellFormed_behind hformed
      obtain ⟨hlexeme, hjoins⟩ := Chain.eq_lexeme_of_operator? htoken hop
      have hright := hoperand _ hfewer hrest _ hread
      refine ih (hleft.join hright ?_ (chain.nesting_join ..)) hresult
      rw [hlexeme]
      exact Chain.derives_join hjoins

/-- If operands are read soundly, a chain of them is. -/
theorem Chain.read_sound (chain : Chain operand tier)
    (hoperand : ∀ fewer, fewer.length ≤ tokens.length →
      SoundOn allowance (read operand allowance) fewer) :
    SoundOn allowance (read tier allowance) tokens := by
  intro hformed reading h
  rw [chain.read_eq] at h
  split at h
  next => cases h
  next first rest hshorter hread =>
      have hfirst := hoperand tokens (Nat.le_refl _) hformed _ hread
      have hchained := chain.goOn_chained allowance ⟨chain.lift first, rest, hshorter⟩
      exact hchained.sound (fun fewer hfewer ↦ hoperand fewer (Nat.le_of_lt hfewer)) hformed
        (hfirst.lift chain.derives_lift (chain.nesting_lift first)) h

end Chain

mutual

/-- A value that is read is a value of the grammar. -/
theorem readValue_sound (allowance : Allowance) (tokens : List Token) :
    SoundOn allowance (readValue allowance) tokens := by
  intro hformed reading h
  rw [readValue.eq_def] at h
  split at h
  next => cases h
  next token rest =>
      split at h
      next digits hlexeme =>
          split at h
          next hdigits =>
              cases h
              refine ⟨[token], rfl, ?_, allowance.admits_zero⟩
              rw [List.map_singleton, hlexeme]
              exact .number digits hdigits
          next => cases h
      next name hlexeme =>
          cases h
          refine ⟨[token], rfl, ?_, allowance.admits_zero⟩
          rw [List.map_singleton, hlexeme]
          exact .named name
      next =>
          split at h
          next hopening =>
              split at h
              next => cases h
              next inside hinside =>
                  split at h
                  next => cases h
                  next => cases h
                  next inner closing behind hbehind hinner =>
                      split at h
                      next hclosing =>
                          cases h
                          obtain ⟨segment, hsegment, hderives, hadmits⟩ :=
                            readExpression_sound inside rest (List.forall_mem_cons.1 hformed).2
                              _ hinner
                          refine ⟨token :: segment ++ [closing], by simp [hsegment], ?_,
                            Allowance.admits_succ.2 ⟨inside, hinside, hadmits⟩⟩
                          simpa [hopening, hclosing] using hderives.parentheses
                      next => cases h
          next => cases h
  termination_by 4 * tokens.length

/-- A factor that is read is a factor of the grammar. -/
theorem readFactor_sound (allowance : Allowance) (tokens : List Token) :
    SoundOn allowance (readFactor allowance) tokens := by
  intro hformed reading h
  rw [readFactor] at h
  split at h
  next => cases h
  next base _ hbase =>
      cases h
      exact (readValue_sound allowance tokens hformed _ hbase).lift .ofValue rfl
  next base token rest hshorter hbase =>
      have hfirst := readValue_sound allowance tokens hformed _ hbase
      have hfewer : rest.length + 1 < tokens.length := hshorter
      split at h
      next hcaret =>
          split at h
          next => cases h
          next exponent behind hbehind hexponent =>
              cases h
              have hrest := (hfirst.wellFormed_behind hformed).2
              have hsecond := readValue_sound allowance rest hrest _ hexponent
              exact hfirst.join hsecond (by rw [hcaret]; exact .power) rfl
      next =>
          cases h
          exact hfirst.lift .ofValue rfl
  termination_by 4 * tokens.length + 1

/-- A term that is read is a term of the grammar. -/
theorem readTerm_sound (allowance : Allowance) (tokens : List Token) :
    SoundOn allowance (readTerm allowance) tokens :=
  Chain.factors.read_sound fun fewer _ ↦ readFactor_sound allowance fewer
  termination_by 4 * tokens.length + 2

/-- An expression that is read is an expression of the grammar. -/
theorem readExpression_sound (allowance : Allowance) (tokens : List Token) :
    SoundOn allowance (readExpression allowance) tokens :=
  Chain.terms.read_sound fun fewer _ ↦ readTerm_sound allowance fewer
  termination_by 4 * tokens.length + 3

end

end Reading

end DiceArithmetic
