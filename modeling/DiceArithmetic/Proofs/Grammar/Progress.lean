import DiceArithmetic.Proofs.Grammar.Descent

/-!
# Readers make progress and end

The readers are followed move by move: from where a part is entered, a descent stops where the
reader stops, or comes to where the part that is read is left. So what holds of a run of moves holds
of a reader. Read `Reading.Follows` first, which each tier has its lemma about and chains have one
for both, and `read_progress` for what comes of it.
-/

namespace DiceArithmetic

namespace Reading

open Descent

/-- Every run from the place stops where reading does, or comes to where the part that is read is
left to what waits for it. -/
def Follows {root tier : Tier} {tokens : List Token} (limit : Allowance) (state : Descent root)
    (pending : Pending root tier) (result : Except Stop (Reading tier tokens)) : Prop :=
  ∀ run outcome, Run limit state run outcome →
    match result with
    | .error stop => outcome = .error stop
    | .ok reading => ∃ later, Run limit (.leave reading.node reading.rest pending) later outcome

namespace Follows

variable {root tier wider : Tier} {limit : Allowance} {state next : Descent root}
  {tokens others : List Token} {pending : Pending root tier} {outer : Pending root wider}
  {result : Except Stop (Reading tier tokens)} {stop : Stop}

theorem refl {node : Node tier} {rest : List Token} (hshorter : rest.length < tokens.length) :
    Follows limit (.leave node rest pending) pending
      (.ok (⟨node, rest, hshorter⟩ : Reading tier tokens)) :=
  fun run _ hrun ↦ ⟨run, hrun⟩

theorem of_stops (h : state.move limit = .stops stop) :
    Follows limit state pending (.error stop : Except Stop (Reading tier tokens)) := by
  intro run outcome hrun
  cases hrun with
  | stops hmove =>
      rw [h] at hmove
      cases hmove
      rfl
  | ends hmove | goesOn hmove =>
      rw [h] at hmove
      cases hmove

theorem of_move (h : state.move limit = .goesOn next) (hnext : Follows limit next pending result) :
    Follows limit state pending result := by
  intro run outcome hrun
  cases hrun with
  | stops hmove | ends hmove =>
      rw [h] at hmove
      cases hmove
  | goesOn hmove hrest =>
      rw [h] at hmove
      cases hmove
      exact hnext _ _ hrest

/-- What stops a part stops the parts that wait for it. -/
theorem error (h : Follows limit state outer (.error stop : Except Stop (Reading wider others))) :
    Follows limit state pending (.error stop : Except Stop (Reading tier tokens)) :=
  h

/-- Behind a part that is read, what waits for it goes on. -/
theorem trans {reading : Reading wider others} (h : Follows limit state outer (.ok reading))
    (hbehind : Follows limit (.leave reading.node reading.rest outer) pending result) :
    Follows limit state pending result := by
  intro run outcome hrun
  obtain ⟨later, hlater⟩ := h run outcome hrun
  exact hbehind later outcome hlater

end Follows

variable {root : Tier} {limit allowance : Allowance}

namespace Chain

variable {operand tier : Tier}

/-- What waits for the first operand of a chain. -/
def first : Chain operand tier → Pending root tier → Pending root operand
  | factors => .firstFactor
  | terms => .firstTerm

/-- What waits for one more operand of a chain that has been read so far. -/
def next : Chain operand tier → Node tier → Operator → Pending root tier → Pending root operand
  | factors => .nextFactor
  | terms => .nextTerm

/-- The place where a chain has been read so far. -/
def place : Chain operand tier → Node tier → List Token → Pending root tier → Descent root
  | factors => .chainFactors
  | terms => .chainTerms

theorem depth_first (chain : Chain operand tier) (pending : Pending root tier) :
    (chain.first pending).depth = pending.depth := by
  cases chain <;> rfl

theorem depth_next (chain : Chain operand tier) (left : Node tier) (op : Operator)
    (pending : Pending root tier) : (chain.next left op pending).depth = pending.depth := by
  cases chain <;> rfl

theorem move_enter (chain : Chain operand tier) (tokens : List Token)
    (pending : Pending root tier) :
    move limit (.enter tier tokens pending) =
      .goesOn (.enter operand tokens (chain.first pending)) := by
  cases chain <;> rfl

theorem move_leave_first (chain : Chain operand tier) (node : Node operand) (rest : List Token)
    (pending : Pending root tier) :
    move limit (.leave node rest (chain.first pending)) =
      .goesOn (chain.place (chain.lift node) rest pending) := by
  cases chain <;> rfl

theorem move_leave_next (chain : Chain operand tier) (left : Node tier) (op : Operator)
    (right : Node operand) (rest : List Token) (pending : Pending root tier) :
    move limit (.leave right rest (chain.next left op pending)) =
      .goesOn (chain.place (chain.join left op right) rest pending) := by
  cases chain <;> rfl

variable {chain : Chain operand tier} {left : Node tier} {rest : List Token}
  {pending : Pending root tier}

/-- Where no operator follows, a chain is left. -/
theorem move_place_of_beginsWithout (h : BeginsWithout chain.prolongs rest) :
    move limit (chain.place left rest pending) = .goesOn (.leave left rest pending) := by
  have hnone : leading? chain.operator? rest = none := by
    cases rest with
    | nil => rfl
    | cons token behind => exact Option.map_eq_none_iff.2 (prolongs_eq_false_iff.1 (h token rfl))
  cases chain <;> simp_all [place, move, operator?]

/-- Behind an operator, an operand is entered. -/
theorem move_place_of_operator? {token : Token} {op : Operator}
    (h : chain.operator? token.lexeme = some op) :
    move limit (chain.place left (token :: rest) pending) =
      .goesOn (.enter operand rest (chain.next left op pending)) := by
  have hsome : leading? chain.operator? (token :: rest) = some (op, rest) := by
    rw [leading?, h, Option.map_some]
  cases chain <;> simp_all [place, move, operator?, next]

end Chain

section Chain

variable {operand tier : Tier} {chain : Chain operand tier} {tokens : List Token}
  {pending : Pending root tier}

/-- If operands are read alike from fewer tokens, they are chained alike. -/
theorem Chained.follows {left : Reading tier tokens} {result : Except Stop (Reading tier tokens)}
    (h : Chained chain allowance left result)
    (hoperand : ∀ (fewer : List Token) (outer : Pending root operand),
      fewer.length < tokens.length → outer.depth = pending.depth →
      Follows limit (.enter operand fewer outer) outer (read operand allowance fewer)) :
    Follows limit (chain.place left.node left.rest pending) pending result := by
  -- Each turn comes to the same place with a longer chain.
  induction h with
  | ends hends => exact .of_move (Chain.move_place_of_beginsWithout hends) (.refl _)
  | @stops node _ rest _ op _ hfewer hop hread =>
      have hright := hoperand rest (chain.next node op pending) hfewer (chain.depth_next ..)
      rw [hread] at hright
      exact .of_move (Chain.move_place_of_operator? hop) hright.error
  | @goesOn node _ rest _ op _ _ _ _ _ hfewer hop hread _ ih =>
      have hright := hoperand rest (chain.next node op pending) hfewer (chain.depth_next ..)
      rw [hread] at hright
      refine .of_move (Chain.move_place_of_operator? hop) (hright.trans ?_)
      exact .of_move (chain.move_leave_next ..) ih

/-- If operands are read alike, a chain of them is. -/
theorem Chain.read_follows (chain : Chain operand tier)
    (hoperand : ∀ (fewer : List Token) (outer : Pending root operand),
      fewer.length ≤ tokens.length → outer.depth = pending.depth →
      Follows limit (.enter operand fewer outer) outer (read operand allowance fewer)) :
    Follows limit (.enter tier tokens pending) pending (read tier allowance tokens) := by
  have hfirst := hoperand tokens (chain.first pending) (Nat.le_refl _) (chain.depth_first pending)
  refine .of_move (chain.move_enter ..) ?_
  rw [chain.read_eq]
  split
  next stop hread =>
      rw [hread] at hfirst
      exact hfirst.error
  next node rest hshorter hread =>
      rw [hread] at hfirst
      refine hfirst.trans (.of_move (chain.move_leave_first ..) ?_)
      exact (chain.goOn_chained allowance ⟨chain.lift node, rest, hshorter⟩).follows
        fun fewer outer hfewer ↦ hoperand fewer outer (Nat.le_of_lt hfewer)

end Chain

mutual

/-- The moves from where a value is entered read it. -/
theorem readValue_follows {allowance : Allowance} (tokens : List Token)
    (pending : Pending root .value) (hleaves : limit.Leaves pending.depth allowance) :
    Follows limit (.enter .value tokens pending) pending (readValue allowance tokens) := by
  rw [readValue.eq_def]
  split
  next => exact .of_stops rfl
  next token rest =>
      split
      next digits hlexeme =>
          split
          next hdigits => exact .of_move (by simp [move, enterValue, hlexeme, hdigits]) (.refl _)
          next hdigits => exact .of_stops (by simp [move, enterValue, hlexeme, hdigits])
      next name hlexeme => exact .of_move (by simp [move, enterValue, hlexeme]) (.refl _)
      next hnumber hname =>
          split
          next hopening =>
              split
              next hinside =>
                  have hdeep := hleaves.not_admits_succ hinside
                  exact .of_stops (by simp [move, enterValue, hopening, hdeep])
              next inside hinside =>
                  have hdeeper : limit.Leaves (Pending.inner pending).depth inside :=
                    hleaves.succ hinside
                  have hadmits : limit.Admits (pending.depth + 1) := hdeeper.admits
                  have hinner := readExpression_follows rest (.inner pending) hdeeper
                  have hmove : move limit (.enter .value (token :: rest) pending) =
                      .goesOn (.enter .expression rest (.inner pending)) := by
                    simp [move, enterValue, hopening, hadmits]
                  refine .of_move hmove ?_
                  split
                  next stop hread =>
                      rw [hread] at hinner
                      exact hinner.error
                  next inner hshorter hread =>
                      rw [hread] at hinner
                      exact hinner.trans (.of_stops rfl)
                  next inner closing behind hbehind hread =>
                      rw [hread] at hinner
                      refine hinner.trans ?_
                      split
                      next hclosing =>
                          exact .of_move (by simp [move, leavePart, leaveInner, hclosing]) (.refl _)
                      next hclosing =>
                          exact .of_stops (by simp [move, leavePart, leaveInner, hclosing])
          next hopening =>
              refine .of_stops ?_
              rw [move, enterValue]
              split
              next digits hlexeme => exact absurd hlexeme (hnumber digits)
              next name hlexeme => exact absurd hlexeme (hname name)
              next => exact if_neg hopening
  termination_by 4 * tokens.length

/-- The moves from where a factor is entered read it. -/
theorem readFactor_follows {allowance : Allowance} (tokens : List Token)
    (pending : Pending root .factor) (hleaves : limit.Leaves pending.depth allowance) :
    Follows limit (.enter .factor tokens pending) pending (readFactor allowance tokens) := by
  have hbase := readValue_follows tokens (.base pending) hleaves
  rw [readFactor]
  refine .of_move rfl ?_
  split
  next stop hread =>
      rw [hread] at hbase
      exact hbase.error
  next base hshorter hread =>
      rw [hread] at hbase
      exact hbase.trans (.of_move rfl (.refl _))
  next base token rest hshorter hread =>
      rw [hread] at hbase
      refine hbase.trans ?_
      have hfewer : rest.length + 1 < tokens.length := hshorter
      split
      next hcaret =>
          have hexponent := readValue_follows rest (.exponent base pending) hleaves
          have hmove : move limit (.leave base (token :: rest) (.base pending)) =
              .goesOn (.enter .value rest (.exponent base pending)) := by
            simp [move, leavePart, leaveBase, hcaret]
          refine .of_move hmove ?_
          split
          next stop hread =>
              rw [hread] at hexponent
              exact hexponent.error
          next exponent behind hbehind hread =>
              rw [hread] at hexponent
              exact hexponent.trans (.of_move rfl (.refl _))
      next hcaret => exact .of_move (by simp [move, leavePart, leaveBase, hcaret]) (.refl _)
  termination_by 4 * tokens.length + 1

/-- The moves from where a term is entered read it. -/
theorem readTerm_follows {allowance : Allowance} (tokens : List Token)
    (pending : Pending root .term) (hleaves : limit.Leaves pending.depth allowance) :
    Follows limit (.enter .term tokens pending) pending (readTerm allowance tokens) :=
  Chain.factors.read_follows fun fewer outer _ hdepth ↦
    readFactor_follows fewer outer (hdepth ▸ hleaves)
  termination_by 4 * tokens.length + 2

/-- The moves from where an expression is entered read it. -/
theorem readExpression_follows {allowance : Allowance} (tokens : List Token)
    (pending : Pending root .expression) (hleaves : limit.Leaves pending.depth allowance) :
    Follows limit (.enter .expression tokens pending) pending
      (readExpression allowance tokens) :=
  Chain.terms.read_follows fun fewer outer _ hdepth ↦
    readTerm_follows fewer outer (hdepth ▸ hleaves)
  termination_by 4 * tokens.length + 3

end

/-- The moves from where a part is entered read it. -/
theorem read_follows {tier : Tier} (tokens : List Token) (pending : Pending root tier)
    (hleaves : limit.Leaves pending.depth allowance) :
    Follows limit (.enter tier tokens pending) pending (read tier allowance tokens) := by
  cases tier with
  | value => exact readValue_follows tokens pending hleaves
  | factor => exact readFactor_follows tokens pending hleaves
  | term => exact readTerm_follows tokens pending hleaves
  | expression => exact readExpression_follows tokens pending hleaves

/-- There is a run through the tokens, and it comes to what reading gives. -/
theorem exists_run_read (tier : Tier) (limit : Allowance) (tokens : List Token) :
    ∃ run, Run limit (.enter tier tokens .whole) run
      ((read tier limit tokens).map fun reading ↦ (reading.node, reading.rest)) := by
  -- That the run ends is known from the moves alone; the readers only say where.
  obtain ⟨run, outcome, hrun⟩ := exists_run limit (.enter tier tokens .whole)
  have hfollows := read_follows tokens .whole limit.leaves_zero run outcome hrun
  cases hread : read tier limit tokens with
  | error stop =>
      rw [hread] at hfollows
      obtain rfl : outcome = .error stop := hfollows
      exact ⟨run, hrun⟩
  | ok reading =>
      rw [hread] at hfollows
      obtain ⟨later, hlater⟩ := hfollows
      cases hlater with
      | stops hmove | goesOn hmove => cases hmove
      | ends hmove =>
          cases hmove
          exact ⟨run, hrun⟩

/-- Take the tokens that are left at any place of a line, and read a part of any tier from them. If
it is read, tokens have been passed, and their parentheses are balanced. If reading stops, it does
so among these tokens or at their end, and without a limit not for nesting. It takes no more moves
than twelve for a token and nine; and wherever an expression is entered or a further round of a
chain begins on the way, fewer tokens are left than wherever that happened before. -/
theorem read_progress (tier : Tier) (limit : Allowance) (tokens : List Token) :
    (match read tier limit tokens with
      | .ok reading =>
          ∃ passed ≠ [], tokens = passed ++ reading.rest ∧
            Lexeme.Balanced (passed.map Token.lexeme)
      | .error stop =>
          (∃ passed, tokens = passed ++ stop.remaining) ∧
            (limit = none → stop.obstacle ≠ .deepNesting)) ∧
    ∃ run,
      Run limit (.enter tier tokens .whole) run
        ((read tier limit tokens).map fun reading ↦ (reading.node, reading.rest)) ∧
      run.length ≤ 12 * tokens.length + 9 ∧
      ((.enter tier tokens .whole :: run).filter begins).Pairwise fun earlier later ↦
        ∃ passed ≠ [], earlier.tokens = passed ++ later.tokens := by
  obtain ⟨run, hrun⟩ := exists_run_read tier limit tokens
  refine ⟨?_, run, hrun, hrun.length_le.trans ?_, hrun.pairwise_begins⟩
  · have hspec := hrun.outcome_keeps
    cases hread : read tier limit tokens with
    | error stop =>
        rw [hread] at hspec
        obtain ⟨⟨passed, htokens⟩, hnesting⟩ := hspec
        exact ⟨⟨passed, htokens.symm⟩, hnesting⟩
    | ok reading =>
        rw [hread] at hspec
        obtain ⟨passed, htokens, hbalanced⟩ := hspec
        refine ⟨passed, ?_, htokens, hbalanced⟩
        rintro rfl
        exact Nat.ne_of_lt reading.rest_lt (congrArg List.length htokens).symm
  · cases tier <;> simp [work, Pending.size]

end Reading

end DiceArithmetic
