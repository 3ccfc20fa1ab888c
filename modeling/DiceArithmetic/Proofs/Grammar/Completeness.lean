import DiceArithmetic.Proofs.Grammar.Soundness

/-!
# Readers read whatever the grammar derives

If the grammar derives the tokens in front, the readers return their tree and leave the tokens
behind, provided that those do not go on with the tree. A derivation of a chain ends with the last
operand and a reader begins with the first one, so for chains the lemma says how far reading has
come: `readTerm` and `readExpression` then go on as if the chain so far had been read already.
Both readings of the letter `d` are settled by its place. Main statement: `reaches_of_derives`.
-/

namespace DiceArithmetic

namespace Reading

variable {allowance : Allowance}

/-- The caret. -/
def isCaret (lexeme : Lexeme) : Bool :=
  lexeme = .punctuation '^'

/-- Whether a lexeme goes on with a part of a tier. -/
def goesOnWith : Tier → Lexeme → Bool
  | .value, _ => false
  | .factor, lexeme => isCaret lexeme
  | .term, lexeme => isCaret lexeme || Chain.factors.prolongs lexeme
  | .expression, lexeme =>
      isCaret lexeme || Chain.factors.prolongs lexeme || Chain.terms.prolongs lexeme

/-- Reading the tokens gives the node and leaves the rest; of a chain, reading has come to the end
of the node. -/
def Reaches (allowance : Allowance) (tokens rest : List Token) : {tier : Tier} → Node tier → Prop
  | .value, node => ∃ hshorter, readValue allowance tokens = .ok ⟨node, rest, hshorter⟩
  | .factor, node =>
      BeginsWithout (goesOnWith .factor) rest →
        ∃ hshorter, readFactor allowance tokens = .ok ⟨node, rest, hshorter⟩
  | .term, node =>
      BeginsWithout (goesOnWith .factor) rest →
        ∃ hshorter, readTerm allowance tokens = chainFactors allowance ⟨node, rest, hshorter⟩
  | .expression, node =>
      BeginsWithout (goesOnWith .term) rest →
        ∃ hshorter, readExpression allowance tokens = chainTerms allowance ⟨node, rest, hshorter⟩

/-- No operator goes on with a factor. -/
theorem isCaret_operator (op : Operator) : isCaret op.lexeme = false := by
  simpa [isCaret] using op.lexeme_ne_caret

namespace Chain

variable {operand tier : Tier} {tokens rest : List Token}

/-- What goes on with a chain goes on with its last operand, or else it is an operator of it. -/
theorem beginsWithout_iff (chain : Chain operand tier) :
    BeginsWithout (goesOnWith tier) rest ↔
      BeginsWithout (goesOnWith operand) rest ∧ BeginsWithout chain.prolongs rest := by
  have hor (lexeme : Lexeme) :
      goesOnWith tier lexeme = (goesOnWith operand lexeme || chain.prolongs lexeme) := by
    cases chain <;> rfl
  simp only [BeginsWithout, hor, Bool.or_eq_false_iff, ← forall_and]

/-- An operator of a chain does not go on with an operand of it. -/
theorem goesOnWith_operator (chain : Chain operand tier) {op : Operator} (h : chain.joins op) :
    goesOnWith operand op.lexeme = false := by
  cases chain with
  | factors => exact isCaret_operator op
  | terms =>
      have hfactors : Chain.factors.operator? op.lexeme = none :=
        Operator.multiplicative?_lexeme_of_isAdditive h
      rw [goesOnWith, isCaret_operator, prolongs_eq_false_iff.2 hfactors]
      rfl

/-- Reading has come to the end of a chain if the chain so far may be taken as read. -/
theorem reaches_iff (chain : Chain operand tier) {node : Node tier} :
    Reaches allowance tokens rest node ↔
      (BeginsWithout (goesOnWith operand) rest →
        ∃ hshorter, read tier allowance tokens = chain.goOn allowance ⟨node, rest, hshorter⟩) := by
  cases chain <;> exact Iff.rfl

/-- A whole chain is read where nothing goes on with it. -/
theorem read_of_reaches (chain : Chain operand tier) {node : Node tier}
    (h : Reaches allowance tokens rest node) (hrest : BeginsWithout (goesOnWith tier) rest) :
    ∃ hshorter, read tier allowance tokens = .ok ⟨node, rest, hshorter⟩ := by
  obtain ⟨hoperand, hends⟩ := chain.beginsWithout_iff.1 hrest
  obtain ⟨hshorter, hread⟩ := chain.reaches_iff.1 h hoperand
  exact ⟨hshorter, hread.trans (chain.goOn_of_beginsWithout hends)⟩

end Chain

/-- A whole part is read where nothing goes on with it. -/
theorem Reaches.whole {tier : Tier} {tokens rest : List Token} {node : Node tier}
    (h : Reaches allowance tokens rest node) (hrest : BeginsWithout (goesOnWith tier) rest) :
    ∃ hshorter, read tier allowance tokens = .ok ⟨node, rest, hshorter⟩ := by
  cases tier with
  | value => exact h
  | factor => exact h hrest
  | term => exact Chain.factors.read_of_reaches h hrest
  | expression => exact Chain.terms.read_of_reaches h hrest

/-- Where reading has come to the end of an operand, a chain begins. -/
theorem Chain.reaches_lift {operand tier : Tier} (chain : Chain operand tier)
    {tokens rest : List Token} {node : Node operand} (h : Reaches allowance tokens rest node) :
    Reaches allowance tokens rest (chain.lift node) := by
  refine chain.reaches_iff.2 fun hrest ↦ ?_
  obtain ⟨hshorter, hread⟩ := h.whole hrest
  refine ⟨hshorter, ?_⟩
  rw [chain.read_eq, hread]

/-- Where reading has come to the end of a chain, and behind an operator to that of an operand, it
has come to the end of the longer chain. -/
theorem Chain.reaches_join {operand tier : Tier} {chain : Chain operand tier} {op : Operator}
    (hop : chain.joins op) {tokens middle rest : List Token} {token : Token}
    (htoken : token.lexeme = op.lexeme) {left : Node tier} {right : Node operand}
    (hleft : Reaches allowance tokens (token :: middle) left)
    (hright : Reaches allowance middle rest right) :
    Reaches allowance tokens rest (chain.join left op right) := by
  refine chain.reaches_iff.2 fun hrest ↦ ?_
  have hends : BeginsWithout (goesOnWith operand) (token :: middle) := by
    refine .cons ?_
    rw [htoken]
    exact chain.goesOnWith_operator hop
  -- The chain without its last operand has been read; the next turn reads that operand.
  obtain ⟨hfirst, hchain⟩ := chain.reaches_iff.1 hleft hends
  obtain ⟨hsecond, hoperand⟩ := hright.whole hrest
  have hlexeme : chain.operator? token.lexeme = some op := htoken ▸ chain.operator?_lexeme hop
  refine ⟨hsecond.trans (Nat.lt_of_succ_lt hfirst), ?_⟩
  rw [hchain, goOn_of_operator? hlexeme, hoperand]

/-- Tokens that begin with a segment whose lexemes are two lists with a lexeme between them. -/
theorem exists_between {tokens segment rest : List Token} {first second : List Lexeme}
    {between : Lexeme} (htokens : tokens = segment ++ rest)
    (hsegment : segment.map Token.lexeme = first ++ between :: second) :
    ∃ before token behind, tokens = before ++ token :: (behind ++ rest) ∧
      token.lexeme = between ∧ before.map Token.lexeme = first ∧
      behind.map Token.lexeme = second := by
  obtain ⟨before, following, rfl, hbefore, hfollowing⟩ := List.map_eq_append_iff.1 hsegment
  obtain ⟨token, behind, rfl, htoken, hbehind⟩ := List.map_eq_cons_iff.1 hfollowing
  refine ⟨before, token, behind, ?_, htoken, hbefore, hbehind⟩
  rw [htokens, List.append_assoc, List.cons_append]

/-- Readers come as far as the grammar does. -/
theorem reaches_of_derives {tier : Tier} {lexemes : List Lexeme} {node : Node tier}
    (h : Derives lexemes node) {allowance : Allowance} (hadmits : allowance.Admits node.nesting)
    {tokens segment rest : List Token} (htokens : tokens = segment ++ rest)
    (hsegment : segment.map Token.lexeme = lexemes) : Reaches allowance tokens rest node := by
  induction h generalizing allowance tokens segment rest with
  | number digits hdigits =>
      obtain ⟨⟨lexeme, start⟩, rfl, rfl⟩ := List.map_eq_singleton_iff.1 hsegment
      subst htokens
      refine ⟨Nat.lt_succ_self _, ?_⟩
      show readValue allowance (_ :: rest) = _
      rw [readValue]
      simp [hdigits]
  | named name =>
      obtain ⟨⟨lexeme, start⟩, rfl, rfl⟩ := List.map_eq_singleton_iff.1 hsegment
      subst htokens
      refine ⟨Nat.lt_succ_self _, ?_⟩
      show readValue allowance (_ :: rest) = _
      rw [readValue]
  | parentheses _ ih =>
      obtain ⟨⟨opening, start⟩, following, rfl, rfl, hfollowing⟩ := List.map_eq_cons_iff.1 hsegment
      obtain ⟨inner, last, rfl, hinner, hlast⟩ := List.map_eq_append_iff.1 hfollowing
      obtain ⟨⟨closing, stop⟩, rfl, rfl⟩ := List.map_eq_singleton_iff.1 hlast
      obtain ⟨inside, hinside, hadmits⟩ := Allowance.admits_succ.1 hadmits
      have hreaches :
          Reaches inside (inner ++ ⟨.punctuation ')', stop⟩ :: rest)
            (⟨.punctuation ')', stop⟩ :: rest) _ :=
        ih hadmits rfl hinner
      -- The closing parenthesis goes on with nothing, so all of the inner expression is read.
      obtain ⟨hshorter, hexpression⟩ := hreaches.whole (.cons rfl)
      obtain rfl :
          tokens = ⟨.punctuation '(', start⟩ :: (inner ++ ⟨.punctuation ')', stop⟩ :: rest) := by
        simpa using htokens
      refine ⟨(Nat.lt_of_succ_lt hshorter).trans (Nat.lt_succ_self _), ?_⟩
      rw [read] at hexpression
      rw [readValue]
      simp [hinside, hexpression]
  | ofValue _ ih =>
      intro hrest
      obtain ⟨hshorter, hvalue⟩ := ih hadmits htokens hsegment
      refine ⟨hshorter, ?_⟩
      rw [readFactor, hvalue]
      cases rest with
      | nil => rfl
      | cons token behind =>
          have hcaret : token.lexeme ≠ .punctuation '^' := by
            simpa [goesOnWith, isCaret] using hrest token rfl
          simp [hcaret]
  | power _ _ ihBase ihExponent =>
      intro _
      obtain ⟨before, token, behind, hsplit, htoken, hbefore, hbehind⟩ :=
        exists_between htokens hsegment
      obtain ⟨hadmitsBase, hadmitsExponent⟩ := Allowance.admits_max.1 hadmits
      obtain ⟨hfirst, hbase⟩ := ihBase hadmitsBase hsplit hbefore
      obtain ⟨hsecond, hexponent⟩ :
          ∃ hshorter, readValue allowance (behind ++ rest) = .ok ⟨_, rest, hshorter⟩ :=
        ihExponent hadmitsExponent rfl hbehind
      refine ⟨hsecond.trans (Nat.lt_of_succ_lt hfirst), ?_⟩
      rw [readFactor, hbase]
      simp [htoken, hexponent]
  | ofFactor _ ih => exact Chain.factors.reaches_lift (ih hadmits htokens hsegment)
  | product _ hop _ ihLeft ihRight =>
      obtain ⟨before, token, behind, hsplit, htoken, hbefore, hbehind⟩ :=
        exists_between htokens hsegment
      obtain ⟨hadmitsLeft, hadmitsRight⟩ := Allowance.admits_max.1 hadmits
      exact Chain.factors.reaches_join hop htoken (ihLeft hadmitsLeft hsplit hbefore)
        (ihRight hadmitsRight rfl hbehind)
  | ofTerm _ ih => exact Chain.terms.reaches_lift (ih hadmits htokens hsegment)
  | sum _ hop _ ihLeft ihRight =>
      obtain ⟨before, token, behind, hsplit, htoken, hbefore, hbehind⟩ :=
        exists_between htokens hsegment
      obtain ⟨hadmitsLeft, hadmitsRight⟩ := Allowance.admits_max.1 hadmits
      exact Chain.terms.reaches_join hop htoken (ihLeft hadmitsLeft hsplit hbefore)
        (ihRight hadmitsRight rfl hbehind)

end Reading

end DiceArithmetic
