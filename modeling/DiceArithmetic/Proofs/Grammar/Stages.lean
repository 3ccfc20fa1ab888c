import DiceArithmetic.Proofs.Grammar.Completeness

/-!
# Reading token by token

A second view of reading, which takes one token after the other and builds no tree. A `Stage` says
how far an expression has come: which parentheses are open, and whether an operand is due. One more
lexeme leads to another stage or to none (`Stage.next?`), and `Stage.stop?` says where the tokens
cease to be the beginning of an expression, and why. `Expression.stop?_ofTokens` says that reading a
tree stops at the same token for the same reason. So whatever is to be shown of syntax errors can be
shown by induction on the tokens.
-/

namespace DiceArithmetic

instance (allowance : Allowance) (depth : Nat) : Decidable (allowance.Admits depth) :=
  match allowance with
  | none => isTrue trivial
  | some levels => inferInstanceAs (Decidable (depth ≤ levels))

namespace Allowance

/-- Of the limit, this allowance is left inside so many open parentheses. -/
def Leaves (limit : Allowance) (opened : Nat) (allowance : Allowance) : Prop :=
  limit = allowance.map (· + opened)

variable {limit allowance : Allowance} {opened : Nat}

theorem leaves_zero (limit : Allowance) : limit.Leaves 0 limit :=
  Option.map_id'.symm

theorem Leaves.admits (h : limit.Leaves opened allowance) : limit.Admits opened := by
  subst h
  cases allowance with
  | none => trivial
  | some levels => exact Nat.le_add_left opened levels

/-- If no more parentheses may be opened, the limit does not admit one level more. -/
theorem Leaves.not_admits_succ (h : limit.Leaves opened allowance)
    (hinside : allowance.inside? = none) : ¬ limit.Admits (opened + 1) := by
  subst h
  match allowance with
  | none => cases hinside
  | some 0 => simp [Admits]
  | some (levels + 1) => cases hinside

/-- The allowance inside one more pair of parentheses is what is left there. -/
theorem Leaves.succ {inside : Allowance} (h : limit.Leaves opened allowance)
    (hinside : allowance.inside? = some inside) : limit.Leaves (opened + 1) inside := by
  subst h
  match allowance with
  | none =>
      cases hinside
      rfl
  | some 0 => cases hinside
  | some (levels + 1) =>
      cases hinside
      simp [Leaves, Nat.add_assoc, Nat.add_comm 1]

end Allowance

/-- How far an expression has come. Of each open parenthesis, the innermost first, it is kept
whether it stands behind a caret; an operand is due or has just come to its end, and it may stand
behind a caret too. -/
structure Stage where
  opened : List Bool
  due : Bool
  raised : Bool
  deriving DecidableEq, Repr

namespace Stage

/-- Nothing has been read. -/
def start : Stage :=
  ⟨[], true, false⟩

/-- An expression has come to its end. -/
def IsComplete (stage : Stage) : Prop :=
  stage.due = false ∧ stage.opened = []

instance (stage : Stage) : Decidable stage.IsComplete :=
  inferInstanceAs (Decidable (_ ∧ _))

/-- The stage behind one more lexeme, if it may come next. Where an operand is due, that is a
number, a name or an opening parenthesis; behind an operand it is an operator, a caret unless the
operand stands behind one, or a closing parenthesis if one is open. -/
def next? (stage : Stage) (lexeme : Lexeme) : Option Stage :=
  if stage.due then
    match lexeme with
    | .number digits =>
        if digits.length ≤ Reading.maxDigits then some { stage with due := false } else none
    | .identifier _ => some { stage with due := false }
    | lexeme =>
        if lexeme = .punctuation '(' then some ⟨stage.raised :: stage.opened, true, false⟩ else none
  else if lexeme = .punctuation '^' then
    if stage.raised then none else some { stage with due := true, raised := true }
  else if lexeme = .punctuation ')' then
    match stage.opened with
    | [] => none
    | outer :: others => some ⟨others, false, outer⟩
  else (Operator.ofLexeme? lexeme).map fun _ ↦ { stage with due := true, raised := false }

/-- What the stage calls for. -/
def wanted (stage : Stage) : Wanted :=
  if stage.due then .operand else if stage.opened = [] then .operator else .closing

/-- The complaint of the stage about these tokens, the first of which may not come next. -/
def objection (stage : Stage) (tokens : List Token) : Stop where
  obstacle :=
    match stage.due, tokens.head?.map Token.lexeme with
    | true, some (.number digits) => .longNumber digits.length
    | _, found => .unexpected stage.wanted found
  remaining := tokens

/-- Where tokens cease to be the beginning of an expression, or come to an end before it does, and
where parentheses nest deeper than the limit; nothing if the tokens are an expression. -/
def stop? (limit : Allowance) (stage : Stage) : List Token → Option Stop
  | [] => if stage.IsComplete then none else some (stage.objection [])
  | token :: rest =>
      match stage.next? token.lexeme with
      | none => some (stage.objection (token :: rest))
      | some next =>
          if limit.Admits next.opened.length then stop? limit next rest
          else some ⟨.deepNesting, token :: rest⟩

variable {limit : Allowance} {stage next : Stage} {lexeme : Lexeme} {token : Token}
  {rest : List Token}

theorem objection_of_not_due (hdue : stage.due = false) (tokens : List Token) :
    stage.objection tokens = .unexpected stage.wanted tokens := by
  simp [objection, hdue, Stop.unexpected]

theorem wanted_of_complete (h : stage.IsComplete) : stage.wanted = .operator := by
  simp [wanted, h.1, h.2]

theorem wanted_of_opened {outer : Bool} {others : List Bool} (hdue : stage.due = false)
    (h : stage.opened = outer :: others) : stage.wanted = .closing := by
  simp [wanted, hdue, h]

theorem stop?_cons_of_none (h : stage.next? token.lexeme = none) :
    stage.stop? limit (token :: rest) = some (stage.objection (token :: rest)) := by
  rw [stop?, h]

theorem stop?_cons_of_some (h : stage.next? token.lexeme = some next)
    (hadmits : limit.Admits next.opened.length) :
    stage.stop? limit (token :: rest) = next.stop? limit rest := by
  rw [stop?, h]
  exact if_pos hadmits

theorem stop?_cons_of_deep (h : stage.next? token.lexeme = some next)
    (hadmits : ¬ limit.Admits next.opened.length) :
    stage.stop? limit (token :: rest) = some ⟨.deepNesting, token :: rest⟩ := by
  rw [stop?, h]
  exact if_neg hadmits

/-- Tokens that may not come next, or an end that comes too early. -/
def Refuses (stage : Stage) : List Token → Prop
  | [] => ¬ stage.IsComplete
  | token :: _ => stage.next? token.lexeme = none

theorem stop?_of_refuses {tokens : List Token} (h : stage.Refuses tokens) :
    stage.stop? limit tokens = some (stage.objection tokens) := by
  cases tokens with
  | nil => exact if_neg h
  | cons token rest => exact stop?_cons_of_none h

/-- The tokens lead from the stage to another one within the limit, whatever is behind them. -/
structure LeadsTo (limit : Allowance) (stage : Stage) (tokens : List Token) (after : Stage) :
    Prop where
  admits : limit.Admits after.opened.length
  stop?_append : ∀ rest, stage.stop? limit (tokens ++ rest) = after.stop? limit rest

/-- Where tokens stop to be the beginning of an expression, unless the nesting is at fault, those
before lead to a stage that refuses the others. -/
theorem exists_leadsTo_of_stop? {tokens : List Token} {stop : Stop}
    (hadmits : limit.Admits stage.opened.length) (h : stage.stop? limit tokens = some stop)
    (hnesting : stop.obstacle ≠ .deepNesting) :
    ∃ before after, tokens = before ++ stop.remaining ∧ stage.LeadsTo limit before after ∧
      after.Refuses stop.remaining ∧ stop = after.objection stop.remaining := by
  induction tokens generalizing stage with
  | nil =>
      rw [stop?] at h
      split at h
      next => cases h
      next hincomplete =>
          cases h
          exact ⟨[], stage, rfl, ⟨hadmits, fun _ ↦ rfl⟩, hincomplete, rfl⟩
  | cons token rest ih =>
      cases hnext : stage.next? token.lexeme with
      | none =>
          rw [stop?_cons_of_none hnext] at h
          cases h
          exact ⟨[], stage, rfl, ⟨hadmits, fun _ ↦ rfl⟩, hnext, rfl⟩
      | some next =>
          by_cases hdeeper : limit.Admits next.opened.length
          · rw [stop?_cons_of_some hnext hdeeper] at h
            obtain ⟨before, after, hrest, hleads, hrefuses, hstop⟩ := ih hdeeper h
            refine ⟨token :: before, after, congrArg (token :: ·) hrest, ⟨hleads.admits, ?_⟩,
              hrefuses, hstop⟩
            intro others
            rw [List.cons_append, stop?_cons_of_some hnext hdeeper, hleads.stop?_append]
          · rw [stop?_cons_of_deep hnext hdeeper] at h
            cases h
            exact absurd rfl hnesting

theorem next?_caret (hdue : stage.due = false) (hraised : stage.raised = false) :
    stage.next? (.punctuation '^') = some ⟨stage.opened, true, true⟩ := by
  simp [next?, hdue, hraised]

theorem next?_operator {op : Operator} (hdue : stage.due = false)
    (h : Operator.ofLexeme? lexeme = some op) :
    stage.next? lexeme = some ⟨stage.opened, true, false⟩ := by
  have hcaret : lexeme ≠ .punctuation '^' := by
    rintro rfl
    cases h
  have hclosing : lexeme ≠ .punctuation ')' := by
    rintro rfl
    cases h
  simp [next?, hdue, hcaret, hclosing, h]

theorem next?_closing {outer : Bool} {others : List Bool} (hdue : stage.due = false)
    (h : stage.opened = outer :: others) :
    stage.next? (.punctuation ')') = some ⟨others, false, outer⟩ := by
  simp [next?, hdue, h]

end Stage

namespace Reading

open Stage

/-- Whether a lexeme goes on with a part of this tier that has come to this stage. -/
def continues (stage : Stage) (tier : Tier) (lexeme : Lexeme) : Bool :=
  isCaret lexeme && !stage.raised ||
    match tier with
    | .value | .factor => false
    | .term => (Operator.multiplicative? lexeme).isSome
    | .expression =>
        (Operator.multiplicative? lexeme).isSome || (Operator.additive? lexeme).isSome

/-- The stage is one behind a part of this tier, inside these parentheses, and the rest does not go
on with that part. -/
structure Behind (opened : List Bool) (tier : Tier) (stage : Stage) (rest : List Token) : Prop where
  opened_eq : stage.opened = opened
  due_eq : stage.due = false
  ends : BeginsWithout (continues stage tier) rest

/-- Reading stops at the given place, or the place where the tokens behind the part that is read
stop is the given one. -/
def Agrees (limit : Allowance) (stop? : Option Stop) (behind : Stage → List Token → Prop)
    {tier : Tier} {tokens : List Token} : Except Stop (Reading tier tokens) → Prop
  | .error stop => stop? = some stop
  | .ok reading =>
      ∃ after, behind after reading.rest ∧ stop? = Stage.stop? limit after reading.rest

variable {limit allowance : Allowance} {opened : List Bool} {tokens rest : List Token}
  {stage : Stage} {token : Token}

/-- An operator joins terms or factors. -/
theorem ofLexeme?_eq_none {lexeme : Lexeme}
    (hmultiplicative : (Operator.multiplicative? lexeme).isSome = false)
    (hadditive : (Operator.additive? lexeme).isSome = false) :
    Operator.ofLexeme? lexeme = none := by
  rw [Option.isSome_eq_false_iff, Option.isNone_iff_eq_none] at hmultiplicative hadditive
  refine Option.eq_none_iff_forall_ne_some.2 fun op hop ↦ ?_
  rw [Operator.multiplicative?, hop] at hmultiplicative
  rw [Operator.additive?, hop] at hadditive
  cases op with
  | add | subtract | roll => cases hadditive
  | multiply | divide => cases hmultiplicative

/-- Behind a whole expression, nothing may come next but a closing parenthesis. -/
theorem Behind.next?_eq_none (h : Behind opened .expression stage (token :: rest))
    (hclosing : token.lexeme = .punctuation ')' → opened = []) :
    stage.next? token.lexeme = none := by
  obtain ⟨rfl, hdue, hends⟩ := h
  obtain ⟨hcaret, hoperator⟩ := Bool.or_eq_false_iff.1 (hends token rfl)
  obtain ⟨hmultiplicative, hadditive⟩ := Bool.or_eq_false_iff.1 hoperator
  unfold Stage.next?
  rw [if_neg (by simp [hdue])]
  split
  next hlexeme =>
      rw [hlexeme] at hcaret
      rw [if_pos (by simpa [isCaret] using hcaret)]
  next =>
      split
      next hlexeme => rw [hclosing hlexeme]
      next => rw [ofLexeme?_eq_none hmultiplicative hadditive, Option.map_none]

section Behind

variable {outer : Bool} {others : List Bool} {tier : Tier}

/-- Behind an operator, an operand is due. -/
theorem Behind.stop?_operator {op : Operator} (h : Behind opened tier stage (token :: rest))
    (hop : Operator.ofLexeme? token.lexeme = some op) (hadmits : limit.Admits opened.length) :
    stage.stop? limit (token :: rest) = Stage.stop? limit ⟨opened, true, false⟩ rest := by
  obtain ⟨rfl, hdue, -⟩ := h
  exact stop?_cons_of_some (next?_operator hdue hop) hadmits

/-- Behind a closing parenthesis, an operand has come to its end. -/
theorem Behind.stop?_closing (h : Behind (outer :: others) .expression stage (token :: rest))
    (hclosing : token.lexeme = .punctuation ')') (hadmits : limit.Admits others.length) :
    stage.stop? limit (token :: rest) = Stage.stop? limit ⟨others, false, outer⟩ rest := by
  have hnext := next?_closing h.due_eq h.opened_eq
  rw [← hclosing] at hnext
  exact stop?_cons_of_some hnext hadmits

/-- Behind a whole expression, any token is in the way but a closing parenthesis. -/
theorem Behind.stop?_cons (h : Behind opened .expression stage (token :: rest))
    (hclosing : token.lexeme = .punctuation ')' → opened = []) :
    stage.stop? limit (token :: rest) = some (.unexpected stage.wanted (token :: rest)) := by
  rw [stop?_cons_of_none (h.next?_eq_none hclosing), objection_of_not_due h.due_eq]

/-- Inside parentheses, the end of the line is in the way. -/
theorem Behind.stop?_nil (h : Behind (outer :: others) tier stage []) :
    stage.stop? limit [] = some (.unexpected .closing []) := by
  have hrefuses : stage.Refuses [] := by
    intro hcomplete
    have hopened := h.opened_eq
    rw [hcomplete.2] at hopened
    cases hopened
  rw [stop?_of_refuses hrefuses, objection_of_not_due h.due_eq,
    wanted_of_opened h.due_eq h.opened_eq]

end Behind

section Chain

variable {operand tier : Tier} {chain : Chain operand tier}

/-- What goes on with a chain goes on with its last operand, or else it is an operator of it. -/
theorem Chain.continues_eq (chain : Chain operand tier) (stage : Stage) (lexeme : Lexeme) :
    continues stage tier lexeme = (continues stage operand lexeme || chain.prolongs lexeme) := by
  cases chain with
  | factors => simp [continues, Chain.prolongs, Chain.operator?]
  | terms => simp [continues, Chain.prolongs, Chain.operator?, Bool.or_assoc]

/-- Behind an operand that no operator follows, the chain is complete. -/
theorem Behind.chained (h : Behind opened operand stage rest)
    (hends : BeginsWithout chain.prolongs rest) : Behind opened tier stage rest where
  opened_eq := h.opened_eq
  due_eq := h.due_eq
  ends := by
    intro token hmem
    rw [chain.continues_eq, h.ends token hmem, hends token hmem]
    rfl

/-- If operands are read alike from fewer tokens, they are chained alike. -/
theorem Chained.agrees {left : Reading tier tokens} {result : Except Stop (Reading tier tokens)}
    (h : Chained chain allowance left result) (hleaves : limit.Leaves opened.length allowance)
    (hoperand : ∀ fewer : List Token, fewer.length < tokens.length →
      Agrees limit (Stage.stop? limit ⟨opened, true, false⟩ fewer) (Behind opened operand)
        (read operand allowance fewer))
    (hleft : Behind opened operand stage left.rest) :
    Agrees limit (stage.stop? limit left.rest) (Behind opened tier) result := by
  -- What has been read until then ends with an operand, at every turn.
  induction h generalizing stage with
  | ends hends => exact ⟨stage, hleft.chained hends, rfl⟩
  | stops hfewer hop hread =>
      have hright := hoperand _ hfewer
      rw [← hleft.stop?_operator (Chain.ofLexeme?_of_operator? hop) hleaves.admits, hread] at hright
      exact hright
  | goesOn hfewer hop hread _ ih =>
      have hright := hoperand _ hfewer
      rw [← hleft.stop?_operator (Chain.ofLexeme?_of_operator? hop) hleaves.admits, hread] at hright
      obtain ⟨after, hafter, hstop⟩ := hright
      rw [hstop]
      exact ih hafter

/-- If operands are read alike, a chain of them is. -/
theorem Chain.read_agrees (chain : Chain operand tier)
    (hleaves : limit.Leaves opened.length allowance)
    (hoperand : ∀ fewer : List Token, fewer.length ≤ tokens.length →
      Agrees limit (Stage.stop? limit ⟨opened, true, false⟩ fewer) (Behind opened operand)
        (read operand allowance fewer)) :
    Agrees limit (Stage.stop? limit ⟨opened, true, false⟩ tokens) (Behind opened tier)
      (read tier allowance tokens) := by
  have hfirst := hoperand tokens (Nat.le_refl _)
  rw [chain.read_eq]
  split
  next stop hread =>
      rw [hread] at hfirst
      exact hfirst
  next first rest hshorter hread =>
      rw [hread] at hfirst
      obtain ⟨after, hafter, hstop⟩ := hfirst
      rw [hstop]
      exact (chain.goOn_chained allowance _).agrees hleaves
        (fun fewer hfewer ↦ hoperand fewer (Nat.le_of_lt hfewer)) hafter

end Chain

mutual

/-- A value is read alike where an operand is due, and leads behind that operand. -/
theorem readValue_agrees {allowance : Allowance} {opened : List Bool}
    (hleaves : limit.Leaves opened.length allowance) (raised : Bool)
    (tokens : List Token) :
    Agrees limit (Stage.stop? limit ⟨opened, true, raised⟩ tokens)
      (fun after _ ↦ after = ⟨opened, false, raised⟩) (readValue allowance tokens) := by
  rw [readValue.eq_def]
  split
  next => rfl
  next token rest =>
      split
      next digits hlexeme =>
          split
          next hdigits =>
              refine ⟨_, rfl, stop?_cons_of_some ?_ hleaves.admits⟩
              rw [hlexeme]
              exact if_pos hdigits
          next hdigits =>
              rw [Agrees, stop?_cons_of_none]
              · simp [objection, hlexeme]
              · rw [hlexeme]
                exact if_neg hdigits
      next name hlexeme =>
          refine ⟨_, rfl, stop?_cons_of_some ?_ hleaves.admits⟩
          rw [hlexeme]
          rfl
      next hnumber hname =>
          have hnext : Stage.next? ⟨opened, true, raised⟩ token.lexeme =
              if token.lexeme = .punctuation '(' then some ⟨raised :: opened, true, false⟩
              else none := by
            unfold Stage.next?
            simp
          split
          next hopening =>
              rw [if_pos hopening] at hnext
              split
              next hinside => exact stop?_cons_of_deep hnext (hleaves.not_admits_succ hinside)
              next inside hinside =>
                  have hdeeper : limit.Leaves (raised :: opened).length inside :=
                    hleaves.succ hinside
                  have hinner := readExpression_agrees hdeeper rest
                  rw [← stop?_cons_of_some hnext hdeeper.admits] at hinner
                  split
                  next stop hread =>
                      rw [hread] at hinner
                      exact hinner
                  next inner hshorter hread =>
                      rw [hread] at hinner
                      obtain ⟨after, hafter, hstop⟩ := hinner
                      exact hstop.trans hafter.stop?_nil
                  next inner closing behind hbehind hread =>
                      rw [hread] at hinner
                      obtain ⟨after, hafter, hstop⟩ := hinner
                      split
                      next hclosing =>
                          exact ⟨_, rfl, hstop.trans (hafter.stop?_closing hclosing hleaves.admits)⟩
                      next hclosing =>
                          rw [Agrees, hstop, hafter.stop?_cons fun h ↦ absurd h hclosing,
                            wanted_of_opened hafter.due_eq hafter.opened_eq]
          next hopening =>
              rw [if_neg hopening] at hnext
              rw [Agrees, stop?_cons_of_none hnext]
              unfold objection
              split
              next digits _ hlexeme =>
                  exact absurd (Option.some.inj hlexeme) (hnumber digits)
              next => rfl
  termination_by 4 * tokens.length

/-- A factor is read alike where an operand is due. -/
theorem readFactor_agrees {allowance : Allowance} {opened : List Bool}
    (hleaves : limit.Leaves opened.length allowance) (tokens : List Token) :
    Agrees limit (Stage.stop? limit ⟨opened, true, false⟩ tokens) (Behind opened .factor)
      (readFactor allowance tokens) := by
  have hbase := readValue_agrees hleaves false tokens
  rw [readFactor]
  split
  next stop hread =>
      rw [hread] at hbase
      exact hbase
  next base hshorter hread =>
      rw [hread] at hbase
      obtain ⟨after, rfl, hstop⟩ := hbase
      exact ⟨_, ⟨rfl, rfl, .nil⟩, hstop⟩
  next base token rest hshorter hread =>
      rw [hread] at hbase
      obtain ⟨after, rfl, hstop⟩ := hbase
      have hfewer : rest.length + 1 < tokens.length := hshorter
      split
      next hcaret =>
          have hnext : Stage.next? ⟨opened, false, false⟩ token.lexeme =
              some ⟨opened, true, true⟩ := by
            rw [hcaret]
            exact next?_caret rfl rfl
          have hexponent := readValue_agrees hleaves true rest
          rw [← stop?_cons_of_some hnext hleaves.admits, ← hstop] at hexponent
          split
          next stop hread =>
              rw [hread] at hexponent
              exact hexponent
          next exponent behind hbehind hread =>
              rw [hread] at hexponent
              obtain ⟨after, rfl, hends⟩ := hexponent
              exact ⟨_, ⟨rfl, rfl, fun _ _ ↦ by simp [continues]⟩, hends⟩
      next hcaret =>
          refine ⟨_, ⟨rfl, rfl, .cons ?_⟩, hstop⟩
          simp [continues, isCaret, hcaret]
  termination_by 4 * tokens.length + 1

/-- A term is read alike where an operand is due. -/
theorem readTerm_agrees {allowance : Allowance} {opened : List Bool}
    (hleaves : limit.Leaves opened.length allowance) (tokens : List Token) :
    Agrees limit (Stage.stop? limit ⟨opened, true, false⟩ tokens) (Behind opened .term)
      (readTerm allowance tokens) :=
  Chain.factors.read_agrees hleaves fun fewer _ ↦ readFactor_agrees hleaves fewer
  termination_by 4 * tokens.length + 2

/-- An expression is read alike where an operand is due. -/
theorem readExpression_agrees {allowance : Allowance} {opened : List Bool}
    (hleaves : limit.Leaves opened.length allowance)
    (tokens : List Token) :
    Agrees limit (Stage.stop? limit ⟨opened, true, false⟩ tokens) (Behind opened .expression)
      (readExpression allowance tokens) :=
  Chain.terms.read_agrees hleaves fun fewer _ ↦ readTerm_agrees hleaves fewer
  termination_by 4 * tokens.length + 3

end

end Reading

namespace Stop

variable {line : String} {stop : Stop}

theorem obstacle_toSyntaxError (line : String) (stop : Stop) :
    (stop.toSyntaxError line).obstacle = stop.obstacle := by
  obtain ⟨obstacle, remaining⟩ := stop
  cases obstacle <;> cases remaining <;> rfl

/-- An error stands at the first token not yet read, or at the end of the line. -/
theorem position_toSyntaxError (hnesting : stop.obstacle ≠ .deepNesting) :
    (stop.toSyntaxError line).position =
      (stop.remaining.head?.map Token.start).getD (.after line.toList) := by
  obtain ⟨obstacle, remaining⟩ := stop
  cases obstacle with
  | deepNesting => exact absurd rfl hnesting
  | unexpected | longNumber => cases remaining <;> rfl

/-- If the nesting is at fault, the error stands at the end of the line. -/
theorem toSyntaxError_of_deepNesting (hnesting : stop.obstacle = .deepNesting) :
    stop.toSyntaxError line = ⟨.after line.toList, .deepNesting⟩ := by
  rw [toSyntaxError, hnesting]

end Stop

namespace Expression

/-- Tokens are read as an expression, or stop where going through them one by one does. -/
theorem stop?_ofTokens (limit : Allowance) (tokens : List Token) :
    Stage.start.stop? limit tokens =
      match ofTokens limit tokens with
      | .ok _ => none
      | .error stop => some stop := by
  have hleaves : limit.Leaves Stage.start.opened.length limit := limit.leaves_zero
  have hread := Reading.readExpression_agrees hleaves tokens
  rw [ofTokens]
  cases hreading : Reading.readExpression limit tokens with
  | error stop =>
      rw [hreading] at hread
      exact hread
  | ok reading =>
      obtain ⟨node, rest, hshorter⟩ := reading
      rw [hreading] at hread
      obtain ⟨after, hafter, hstop⟩ := hread
      have hopened : after.opened = [] := hafter.opened_eq
      refine hstop.trans ?_
      cases rest with
      | nil => exact if_pos ⟨hafter.due_eq, hopened⟩
      | cons token behind =>
          rw [hafter.stop?_cons fun _ ↦ rfl, Stage.wanted_of_complete ⟨hafter.due_eq, hopened⟩]

theorem ofTokens_eq_error_iff {limit : Allowance} {tokens : List Token} {stop : Stop} :
    ofTokens limit tokens = .error stop ↔ Stage.start.stop? limit tokens = some stop := by
  rw [stop?_ofTokens]
  cases ofTokens limit tokens <;> simp

theorem exists_ofTokens_eq_ok_iff {limit : Allowance} {tokens : List Token} :
    (∃ expression, ofTokens limit tokens = .ok expression) ↔
      Stage.start.stop? limit tokens = none := by
  rw [stop?_ofTokens]
  cases ofTokens limit tokens <;> simp

/-- A line cannot be read, though it can be cut into tokens, just when going through the tokens that
say something stops, and the error is at that place. -/
theorem ofLine_eq_error_iff {limit : Allowance} {line : String} {error : SyntaxError} :
    ofLine limit line = .error (.grammatical error) ↔
      ∃ tokens stop, (Lexed.ofString line).significant = .ok tokens ∧
        Stage.start.stop? limit tokens = some stop ∧ stop.toSyntaxError line = error := by
  rw [ofLine]
  cases (Lexed.ofString line).significant with
  | error error => simp
  | ok tokens =>
      simp only [Except.ok.injEq, exists_and_left, exists_eq_left', ← ofTokens_eq_error_iff]
      cases ofTokens limit tokens <;> simp [Except.mapError]

end Expression

end DiceArithmetic
