import Mathlib.Logic.Relation
import DiceArithmetic.Proofs.Grammar.Nesting

/-!
# Reading in single moves

A third view of reading. The readers call one another; here what waits for a call to return is
written down (`Pending`), and reading goes on from place to place (`Descent`) by moves that call
nothing (`Descent.move`). So nothing in the definitions says that reading ends.

`Descent.move_keeps` says what every move keeps to: it passes tokens without closing a parenthesis
that is not open, it leaves less work to be done, and where an expression is entered or a chain goes
on, a token is passed before that happens again. The lemmas about `Descent.Run` say it of a whole
run, and `Descent.exists_run` says that there is one from every place.
-/

namespace DiceArithmetic

namespace Lexeme

/-- How many parentheses are open behind the lexeme, given how many are open before it; nothing if
it closes one and none is open. -/
def openBehind? (level : Nat) (lexeme : Lexeme) : Option Nat :=
  if lexeme = .punctuation ')' ∧ level = 0 then none else some (lexeme.openBehind level)

/-- Every parenthesis that is opened is closed, and none is closed that is not open. -/
def Balanced (lexemes : List Lexeme) : Prop :=
  lexemes.foldlM openBehind? 0 = some 0

variable {lexeme : Lexeme}

theorem openBehind?_opening (level : Nat) :
    openBehind? level (.punctuation '(') = some (level + 1) := by
  rw [openBehind?, if_neg fun h ↦ absurd h.1 (by decide)]
  rfl

theorem openBehind?_closing (level : Nat) :
    openBehind? (level + 1) (.punctuation ')') = some level := by
  rw [openBehind?, if_neg fun h ↦ absurd h.2 (Nat.succ_ne_zero level)]
  rfl

theorem openBehind?_of_ne (hopening : lexeme ≠ .punctuation '(')
    (hclosing : lexeme ≠ .punctuation ')') (level : Nat) :
    lexeme.openBehind? level = some level := by
  rw [openBehind?, if_neg fun h ↦ hclosing h.1, Stage.openBehind_of_ne hopening hclosing]

theorem openBehind?_operator {op : Operator} (h : Operator.ofLexeme? lexeme = some op)
    (level : Nat) : lexeme.openBehind? level = some level := by
  have hopening : lexeme ≠ .punctuation '(' := by
    rintro rfl
    cases h
  have hclosing : lexeme ≠ .punctuation ')' := by
    rintro rfl
    cases h
  exact openBehind?_of_ne hopening hclosing level

end Lexeme

/-- The tokens are some that are passed and the rest behind them. With `before` parentheses open in
front of those passed, `behind` are open behind them, and they close none that is not open. -/
def Passing (before : Nat) (tokens : List Token) (behind : Nat) (rest : List Token) : Prop :=
  ∃ passed, tokens = passed ++ rest ∧
    (passed.map Token.lexeme).foldlM Lexeme.openBehind? before = some behind

namespace Passing

variable {before between behind : Nat} {tokens middle rest : List Token}

theorem refl (before : Nat) (tokens : List Token) : Passing before tokens before tokens :=
  ⟨[], rfl, rfl⟩

theorem single {token : Token} (h : token.lexeme.openBehind? before = some behind) :
    Passing before (token :: rest) behind rest := by
  refine ⟨[token], rfl, ?_⟩
  rw [List.map_singleton, List.foldlM_cons, h]
  rfl

theorem trans (hfirst : Passing before tokens between middle)
    (hsecond : Passing between middle behind rest) : Passing before tokens behind rest := by
  obtain ⟨first, rfl, hfirst⟩ := hfirst
  obtain ⟨second, rfl, hsecond⟩ := hsecond
  refine ⟨first ++ second, (List.append_assoc ..).symm, ?_⟩
  rw [List.map_append, List.foldlM_append, hfirst]
  exact hsecond

theorem suffix (h : Passing before tokens behind rest) : rest <:+ tokens := by
  obtain ⟨passed, rfl, -⟩ := h
  exact List.suffix_append passed rest

end Passing

/-- What waits for a part of the given tier while a part of the tier `root` is read: the parts that
have been entered and not left, the innermost first, each with what has been read of it. -/
inductive Pending (root : Tier) : Tier → Type where
  | whole : Pending root root
  | inner (outer : Pending root .value) : Pending root .expression
  | base (outer : Pending root .factor) : Pending root .value
  | exponent (base : Value) (outer : Pending root .factor) : Pending root .value
  | firstFactor (outer : Pending root .term) : Pending root .factor
  | nextFactor (left : Term) (op : Operator) (outer : Pending root .term) : Pending root .factor
  | firstTerm (outer : Pending root .expression) : Pending root .term
  | nextTerm (left : Expression) (op : Operator) (outer : Pending root .expression) :
      Pending root .term

namespace Pending

variable {root : Tier}

/-- How many parentheses are open. -/
def depth {tier : Tier} : Pending root tier → Nat
  | .whole => 0
  | .inner outer => outer.depth + 1
  | .base outer | .exponent _ outer => outer.depth
  | .firstFactor outer | .nextFactor _ _ outer => outer.depth
  | .firstTerm outer | .nextTerm _ _ outer => outer.depth

/-- How many parts wait. -/
def size {tier : Tier} : Pending root tier → Nat
  | .whole => 0
  | .inner outer => outer.size + 1
  | .base outer | .exponent _ outer => outer.size + 1
  | .firstFactor outer | .nextFactor _ _ outer => outer.size + 1
  | .firstTerm outer | .nextTerm _ _ outer => outer.size + 1

end Pending

/-- A place on the way through tokens. A part of a tier is to be read from the tokens that are left,
or has been read and is left in front of them; or a chain has been read so far and may go on with
them. -/
inductive Descent (root : Tier) : Type where
  | enter (tier : Tier) (tokens : List Token) (pending : Pending root tier)
  | leave {tier : Tier} (node : Node tier) (rest : List Token) (pending : Pending root tier)
  | chainFactors (left : Term) (rest : List Token) (pending : Pending root .term)
  | chainTerms (left : Expression) (rest : List Token) (pending : Pending root .expression)

/-- What comes of a place: another place, an obstacle, or the end, where nothing waits. -/
inductive Move (root : Tier) : Type where
  | goesOn (next : Descent root)
  | stops (stop : Stop)
  | ends (node : Node root) (rest : List Token)

namespace Descent

variable {root : Tier}

/-- The move into a value. -/
def enterValue (limit : Allowance) (tokens : List Token) (pending : Pending root .value) :
    Move root :=
  match tokens with
  | [] => .stops (.unexpected .operand [])
  | token :: rest =>
      match token.lexeme with
      | .number digits =>
          if digits.length ≤ Reading.maxDigits then
            .goesOn (.leave (.number (Reading.decimalValue digits)) rest pending)
          else .stops ⟨.longNumber digits.length, token :: rest⟩
      | .identifier name => .goesOn (.leave (.named name) rest pending)
      | lexeme =>
          if lexeme = .punctuation '(' then
            if limit.Admits (pending.depth + 1) then
              .goesOn (.enter .expression rest (.inner pending))
            else .stops ⟨.deepNesting, token :: rest⟩
          else .stops (.unexpected .operand (token :: rest))

/-- The move out of the expression inside parentheses. -/
def leaveInner (inner : Expression) (rest : List Token) (outer : Pending root .value) :
    Move root :=
  match rest with
  | [] => .stops (.unexpected .closing [])
  | token :: behind =>
      if token.lexeme = .punctuation ')' then .goesOn (.leave (.parentheses inner) behind outer)
      else .stops (.unexpected .closing (token :: behind))

/-- The move out of the base of a factor. -/
def leaveBase (base : Value) (rest : List Token) (outer : Pending root .factor) : Move root :=
  match rest with
  | [] => .goesOn (.leave (.ofValue base) [] outer)
  | token :: behind =>
      if token.lexeme = .punctuation '^' then .goesOn (.enter .value behind (.exponent base outer))
      else .goesOn (.leave (.ofValue base) (token :: behind) outer)

/-- The move out of a part, to what waits for it. -/
def leavePart {tier : Tier} (node : Node tier) (rest : List Token) :
    Pending root tier → Move root
  | .whole => .ends node rest
  | .inner outer => leaveInner node rest outer
  | .base outer => leaveBase node rest outer
  | .exponent base outer => .goesOn (.leave (.power base node) rest outer)
  | .firstFactor outer => .goesOn (.chainFactors (.ofFactor node) rest outer)
  | .nextFactor left op outer => .goesOn (.chainFactors (.product left op node) rest outer)
  | .firstTerm outer => .goesOn (.chainTerms (.ofTerm node) rest outer)
  | .nextTerm left op outer => .goesOn (.chainTerms (.sum left op node) rest outer)

/-- The operator that the tokens begin with, and the tokens behind it. -/
def leading? (operator? : Lexeme → Option Operator) : List Token → Option (Operator × List Token)
  | [] => none
  | token :: rest => (operator? token.lexeme).map (·, rest)

/-- The move from a place, with so many parentheses allowed to be open at a time. -/
def move (limit : Allowance) : Descent root → Move root
  | .enter .value tokens pending => enterValue limit tokens pending
  | .enter .factor tokens pending => .goesOn (.enter .value tokens (.base pending))
  | .enter .term tokens pending => .goesOn (.enter .factor tokens (.firstFactor pending))
  | .enter .expression tokens pending => .goesOn (.enter .term tokens (.firstTerm pending))
  | .leave node rest pending => leavePart node rest pending
  | .chainFactors left rest pending =>
      match leading? Operator.multiplicative? rest with
      | none => .goesOn (.leave left rest pending)
      | some (op, behind) => .goesOn (.enter .factor behind (.nextFactor left op pending))
  | .chainTerms left rest pending =>
      match leading? Operator.additive? rest with
      | none => .goesOn (.leave left rest pending)
      | some (op, behind) => .goesOn (.enter .term behind (.nextTerm left op pending))

/-- The tokens that are left. -/
def tokens : Descent root → List Token
  | .enter _ tokens _ => tokens
  | .leave _ rest _ | .chainFactors _ rest _ | .chainTerms _ rest _ => rest

/-- How many parentheses are open. -/
def depth : Descent root → Nat
  | .enter _ _ pending | .leave _ _ pending => pending.depth
  | .chainFactors _ _ pending | .chainTerms _ _ pending => pending.depth

/-- Whether an expression is entered here, or one more round of a chain begins. -/
def begins : Descent root → Bool
  | .enter .expression _ _ => true
  | .enter .value _ _ | .enter .factor _ _ | .enter .term _ _ | .leave _ _ _ => false
  | .chainFactors _ rest _ => (leading? Operator.multiplicative? rest).isSome
  | .chainTerms _ rest _ => (leading? Operator.additive? rest).isSome

/-! ## What a move keeps to -/

/-- A bound on the moves that are left. A token pays for twelve of them and a part that waits for
two; a part that is entered pays for three more than one of the next tighter tier. -/
def work : Descent root → Nat
  | .enter .value tokens pending => 12 * tokens.length + 2 * pending.size
  | .enter .factor tokens pending => 12 * tokens.length + 2 * pending.size + 3
  | .enter .term tokens pending => 12 * tokens.length + 2 * pending.size + 6
  | .enter .expression tokens pending => 12 * tokens.length + 2 * pending.size + 9
  | .leave _ rest pending => 12 * rest.length + 2 * pending.size
  | .chainFactors _ rest pending | .chainTerms _ rest pending =>
      12 * rest.length + 2 * pending.size + 1

/-- One more than the most tokens that can be left where something begins next. Where a part of a
tighter tier than an expression is entered, one of those left has to be passed before. -/
def ahead : Descent root → Nat
  | .enter .value tokens _ | .enter .factor tokens _ | .enter .term tokens _ => tokens.length
  | .enter .expression tokens _ => tokens.length + 1
  | .leave _ rest _ | .chainFactors _ rest _ | .chainTerms _ rest _ => rest.length + 1

variable {state next : Descent root}

theorem leading?_eq_some {operator? : Lexeme → Option Operator} {tokens behind : List Token}
    {op : Operator} (h : leading? operator? tokens = some (op, behind)) :
    ∃ token, tokens = token :: behind ∧ operator? token.lexeme = some op := by
  cases tokens with
  | nil => cases h
  | cons token rest =>
      obtain ⟨found, hfound, hsame⟩ := Option.map_eq_some_iff.1 h
      cases hsame
      exact ⟨token, rfl, hfound⟩

theorem ahead_of_begins (h : state.begins) : state.ahead = state.tokens.length + 1 := by
  match state, h with
  | .enter .expression _ _, _ | .chainFactors _ _ _, _ | .chainTerms _ _ _, _ => rfl

theorem length_le_ahead (state : Descent root) : state.tokens.length ≤ state.ahead := by
  match state with
  | .enter .value _ _ | .enter .factor _ _ | .enter .term _ _ => exact Nat.le_refl _
  | .enter .expression _ _ | .leave _ _ _ | .chainFactors _ _ _ | .chainTerms _ _ _ =>
      exact Nat.le_succ _

theorem ahead_le_length (state : Descent root) : state.ahead ≤ state.tokens.length + 1 := by
  match state with
  | .enter .value _ _ | .enter .factor _ _ | .enter .term _ _ => exact Nat.le_succ _
  | .enter .expression _ _ | .leave _ _ _ | .chainFactors _ _ _ | .chainTerms _ _ _ =>
      exact Nat.le_refl _

/-- What a move from one place to the next does. -/
structure Precedes (state next : Descent root) : Prop where
  passing : Passing state.depth state.tokens next.depth next.tokens
  work_lt : next.work < state.work
  ahead_le : next.ahead ≤ state.ahead
  ahead_le_of_begins : state.begins → next.ahead ≤ state.tokens.length

/-- A move past a token. -/
theorem Precedes.pass {token : Token} (htokens : state.tokens = token :: next.tokens)
    (hdepth : token.lexeme.openBehind? state.depth = some next.depth)
    (hwork : next.work < state.work) : state.Precedes next := by
  have hlength : state.tokens.length = next.tokens.length + 1 := congrArg List.length htokens
  have hahead : next.ahead ≤ state.tokens.length := hlength ▸ next.ahead_le_length
  exact ⟨htokens ▸ .single hdepth, hwork, hahead.trans state.length_le_ahead, fun _ ↦ hahead⟩

/-- A move past no token, from where nothing begins. -/
theorem Precedes.stay (htokens : next.tokens = state.tokens) (hdepth : next.depth = state.depth)
    (hwork : next.work < state.work) (hahead : next.ahead ≤ state.ahead)
    (hbegins : state.begins = false) : state.Precedes next where
  passing := by
    rw [htokens, hdepth]
    exact .refl _ _
  work_lt := hwork
  ahead_le := hahead
  ahead_le_of_begins h := by
    rw [hbegins] at h
    cases h

end Descent

/-- What is true of the move from a place. -/
def Move.Keeps {root : Tier} (limit : Allowance) (state : Descent root) : Move root → Prop
  | .goesOn next => state.Precedes next
  | .stops stop => stop.remaining = state.tokens ∧ (limit = none → stop.obstacle ≠ .deepNesting)
  | .ends _ rest => rest = state.tokens ∧ state.depth = 0

namespace Descent

variable {root : Tier} {limit : Allowance}

/-- A move that stops for another reason than nesting. -/
theorem stops_keeps {state : Descent root} {obstacle : Obstacle}
    (h : obstacle ≠ .deepNesting) : (Move.stops ⟨obstacle, state.tokens⟩).Keeps limit state :=
  ⟨rfl, fun _ ↦ h⟩

theorem enterValue_keeps (tokens : List Token) (pending : Pending root .value) :
    (enterValue limit tokens pending).Keeps limit (.enter .value tokens pending) := by
  unfold enterValue
  split
  next => exact stops_keeps (by simp)
  next token rest =>
      split
      next digits hlexeme =>
          split
          next =>
              refine .pass rfl (by rw [hlexeme]; rfl) ?_
              simp only [work, List.length_cons]
              omega
          next => exact stops_keeps (by simp)
      next name hlexeme =>
          refine .pass rfl (by rw [hlexeme]; rfl) ?_
          simp only [work, List.length_cons]
          omega
      next =>
          split
          next hopening =>
              split
              next =>
                  refine .pass rfl (hopening ▸ Lexeme.openBehind?_opening _) ?_
                  simp only [work, Pending.size, List.length_cons]
                  omega
              next hdeep =>
                  refine ⟨rfl, fun hlimit _ ↦ hdeep ?_⟩
                  rw [hlimit]
                  trivial
          next => exact stops_keeps (by simp)

theorem leaveInner_keeps (inner : Expression) (rest : List Token) (outer : Pending root .value) :
    (leaveInner inner rest outer).Keeps limit (.leave inner rest (.inner outer)) := by
  unfold leaveInner
  split
  next => exact stops_keeps (by simp)
  next token behind =>
      split
      next hclosing =>
          refine .pass rfl (hclosing ▸ Lexeme.openBehind?_closing _) ?_
          simp only [work, Pending.size, List.length_cons]
          omega
      next => exact stops_keeps (by simp)

theorem leaveBase_keeps (base : Value) (rest : List Token) (outer : Pending root .factor) :
    (leaveBase base rest outer).Keeps limit (.leave base rest (.base outer)) := by
  unfold leaveBase
  split
  next => exact .stay rfl rfl (by simp [work, Pending.size]) (Nat.le_refl _) rfl
  next token behind =>
      split
      next hcaret =>
          refine .pass rfl (hcaret ▸ Lexeme.openBehind?_of_ne (by decide) (by decide) _) ?_
          simp only [work, Pending.size, List.length_cons]
          omega
      next => exact .stay rfl rfl (by simp [work, Pending.size]) (Nat.le_refl _) rfl

/-- Every move to another place passes tokens without closing what is not open, leaves less to be
done, and has a token passed between what begins and what begins next. A descent stops at the tokens
that are left, and without a limit not for nesting; it ends with all parentheses closed. -/
theorem move_keeps (limit : Allowance) (state : Descent root) :
    (state.move limit).Keeps limit state := by
  match state with
  | .enter .value tokens pending => exact enterValue_keeps tokens pending
  | .enter .factor tokens pending | .enter .term tokens pending =>
      refine .stay rfl rfl ?_ (Nat.le_refl _) rfl
      simp only [work, Pending.size]
      omega
  | .enter .expression tokens pending =>
      refine ⟨.refl _ _, ?_, Nat.le_succ _, fun _ ↦ Nat.le_refl _⟩
      simp only [work, Pending.size]
      omega
  | .leave node rest .whole => exact ⟨rfl, rfl⟩
  | .leave node rest (.inner outer) => exact leaveInner_keeps node rest outer
  | .leave node rest (.base outer) => exact leaveBase_keeps node rest outer
  | .leave node rest (.exponent _ outer) | .leave node rest (.firstFactor outer)
  | .leave node rest (.nextFactor _ _ outer) | .leave node rest (.firstTerm outer)
  | .leave node rest (.nextTerm _ _ outer) =>
      refine .stay rfl rfl ?_ (Nat.le_refl _) rfl
      simp only [work, Pending.size]
      omega
  | .chainFactors left rest pending | .chainTerms left rest pending =>
      simp only [move]
      split
      next hnone =>
          exact .stay rfl rfl (Nat.lt_succ_self _) (Nat.le_refl _) (by simp [begins, hnone])
      next op behind hleading =>
          obtain ⟨token, hrest, hop⟩ := leading?_eq_some hleading
          refine .pass hrest (Lexeme.openBehind?_operator (Option.filter_eq_some_iff.1 hop).1 _) ?_
          simp only [work, Pending.size, hrest, List.length_cons]
          omega

/-! ## Whole runs -/

/-- Going on from the place leads through these others and comes to the given outcome. -/
inductive Run (limit : Allowance) :
    Descent root → List (Descent root) → Except Stop (Node root × List Token) → Prop where
  | stops {state : Descent root} {stop : Stop} :
      state.move limit = .stops stop → Run limit state [] (.error stop)
  | ends {state : Descent root} {node : Node root} {rest : List Token} :
      state.move limit = .ends node rest → Run limit state [] (.ok (node, rest))
  | goesOn {state next : Descent root} {run : List (Descent root)}
      {outcome : Except Stop (Node root × List Token)} :
      state.move limit = .goesOn next → Run limit next run outcome →
      Run limit state (next :: run) outcome

/-- What is true of where a run comes to. If it ends, the tokens passed close all parentheses that
were open or are opened. If it stops, it does so there or further on, and without a limit not for
nesting. -/
def OutcomeKeeps (limit : Allowance) (state : Descent root) :
    Except Stop (Node root × List Token) → Prop
  | .ok (_, rest) => Passing state.depth state.tokens 0 rest
  | .error stop =>
      stop.remaining <:+ state.tokens ∧ (limit = none → stop.obstacle ≠ .deepNesting)

variable {state next : Descent root} {run : List (Descent root)}
  {outcome : Except Stop (Node root × List Token)}

theorem precedes_of_move (h : state.move limit = .goesOn next) : state.Precedes next := by
  have hkeeps := state.move_keeps limit
  rwa [h] at hkeeps

/-- There is a run from every place, since every move leaves less work. -/
theorem exists_run (limit : Allowance) (state : Descent root) :
    ∃ run outcome, Run limit state run outcome := by
  induction hwork : state.work using Nat.strongRecOn generalizing state with
  | ind work ih =>
      cases hmove : state.move limit with
      | stops stop => exact ⟨[], _, .stops hmove⟩
      | ends node rest => exact ⟨[], _, .ends hmove⟩
      | goesOn next =>
          obtain ⟨run, outcome, hrun⟩ :=
            ih next.work (hwork ▸ (precedes_of_move hmove).work_lt) next rfl
          exact ⟨next :: run, outcome, .goesOn hmove hrun⟩

namespace Run

/-- A run is no longer than the work to be done. -/
theorem length_le (h : Run limit state run outcome) : run.length ≤ state.work := by
  induction h with
  | stops | ends => exact Nat.zero_le _
  | goesOn hmove _ ih => exact Nat.lt_of_le_of_lt ih (precedes_of_move hmove).work_lt

/-- What a move does to a place, if it can be done in turn, a run does to it. -/
theorem related {relation : Descent root → Descent root → Prop}
    (hnext : ∀ {state next}, state.Precedes next → relation state next)
    (htrans : ∀ {first second third}, relation first second → relation second third →
      relation first third)
    (h : Run limit state run outcome) : ∀ later ∈ run, relation state later := by
  induction h with
  | stops | ends => exact nofun
  | goesOn hmove _ ih =>
      have hfirst := hnext (precedes_of_move hmove)
      exact List.forall_mem_cons.2 ⟨hfirst, fun later hmem ↦ htrans hfirst (ih later hmem)⟩

/-- Along a run, tokens are passed from the front. -/
theorem suffix (h : Run limit state run outcome) :
    ∀ later ∈ run, later.tokens <:+ state.tokens :=
  h.related (fun hmove ↦ hmove.passing.suffix) fun hfirst hsecond ↦ hsecond.trans hfirst

theorem ahead_le (h : Run limit state run outcome) : ∀ later ∈ run, later.ahead ≤ state.ahead :=
  h.related (fun hmove ↦ hmove.ahead_le) fun hfirst hsecond ↦ hsecond.trans hfirst

/-- Behind a place where something begins, fewer tokens are left wherever something begins. -/
theorem length_lt (h : Run limit state run outcome) (hbegins : state.begins) :
    ∀ later ∈ run, later.begins → later.tokens.length < state.tokens.length := by
  cases h with
  | stops | ends => exact nofun
  | goesOn hmove hrun =>
      have hnext := (precedes_of_move hmove).ahead_le_of_begins hbegins
      intro later hmem hlater
      have hahead : later.ahead ≤ state.tokens.length := by
        rcases List.mem_cons.1 hmem with rfl | hmem
        · exact hnext
        · exact (hrun.ahead_le later hmem).trans hnext
      rwa [ahead_of_begins hlater] at hahead

/-- Wherever something begins along a run, some of the tokens have been passed that were left where
something began before. -/
theorem pairwise_begins (h : Run limit state run outcome) :
    ((state :: run).filter begins).Pairwise fun earlier later ↦
      ∃ passed ≠ [], earlier.tokens = passed ++ later.tokens := by
  rw [List.pairwise_filter]
  -- From the end of the run: each place is compared with those behind it.
  induction h with
  | stops | ends => exact List.pairwise_singleton ..
  | @goesOn state next run outcome hmove hrun ih =>
      have hall : Run limit state (next :: run) outcome := .goesOn hmove hrun
      refine List.pairwise_cons.2 ⟨fun later hmem hbegins hlater ↦ ?_, ih⟩
      obtain ⟨passed, htokens⟩ := hall.suffix later hmem
      have hfewer := hall.length_lt hbegins later hmem hlater
      refine ⟨passed, ?_, htokens.symm⟩
      rintro rfl
      exact Nat.ne_of_lt hfewer (congrArg List.length htokens)

theorem outcome_keeps (h : Run limit state run outcome) : OutcomeKeeps limit state outcome := by
  induction h with
  | @stops state stop hmove =>
      have hkeeps := state.move_keeps limit
      rw [hmove] at hkeeps
      exact ⟨hkeeps.1 ▸ List.suffix_refl _, hkeeps.2⟩
  | @ends state node rest hmove =>
      have hkeeps := state.move_keeps limit
      rw [hmove] at hkeeps
      obtain ⟨rfl, hdepth⟩ := hkeeps
      rw [OutcomeKeeps, hdepth]
      exact .refl _ _
  | @goesOn state next run outcome hmove _ ih =>
      have hpassing := (precedes_of_move hmove).passing
      cases outcome with
      | ok result => exact hpassing.trans ih
      | error stop => exact ⟨ih.1.trans hpassing.suffix, ih.2⟩

end Run

end Descent

end DiceArithmetic
