import DiceArithmetic.Proofs.Grammar.Viability

/-!
# What a limit on nesting changes

Reading without a limit is what reading with one is compared with. It gets as far as one token may
come behind the other (`Stage.passed`), and a limit matters to it just when parentheses nest deeper
among the tokens that it gets past; see `Expression.ofLine_of_admits` and
`Expression.ofLine_of_not_admits`. Nothing behind them matters, nor does anything else before.
-/

namespace DiceArithmetic

open Lexeme

namespace Stage

variable {limit : Allowance} {stage next : Stage} {lexeme : Lexeme} {token : Token}
  {tokens rest : List Token}

/-- The tokens from the front that may come one behind the other, however deep parentheses nest. -/
def passed (stage : Stage) : List Token → List Token
  | [] => []
  | token :: rest =>
      match stage.next? token.lexeme with
      | none => []
      | some next => token :: passed next rest

theorem passed_cons_of_none (h : stage.next? token.lexeme = none) :
    stage.passed (token :: rest) = [] := by
  rw [passed, h]

theorem passed_cons_of_some (h : stage.next? token.lexeme = some next) :
    stage.passed (token :: rest) = token :: next.passed rest := by
  rw [passed, h]

/-- Without a limit, the tokens that are not passed are those at which going through them stops. -/
theorem passed_append :
    match stage.stop? none tokens with
    | none => stage.passed tokens = tokens
    | some stop => stage.passed tokens ++ stop.remaining = tokens := by
  induction tokens generalizing stage with
  | nil =>
      rw [stop?]
      by_cases hcomplete : stage.IsComplete
      · rw [if_pos hcomplete]
        rfl
      · rw [if_neg hcomplete]
        rfl
  | cons token rest ih =>
      cases hnext : stage.next? token.lexeme with
      | none =>
          rw [stop?_cons_of_none hnext, passed_cons_of_none hnext]
          rfl
      | some next =>
          have hrest := @ih next
          have hadmits : Allowance.Admits none next.opened.length := trivial
          rw [stop?_cons_of_some hnext hadmits, passed_cons_of_some hnext]
          cases hstop : next.stop? none rest with
          | none =>
              rw [hstop] at hrest
              exact congrArg (token :: ·) hrest
          | some stop =>
              rw [hstop] at hrest
              exact congrArg (token :: ·) hrest

/-- Only parentheses open and close parentheses. -/
theorem openBehind_of_ne (hopening : lexeme ≠ .punctuation '(')
    (hclosing : lexeme ≠ .punctuation ')') (level : Nat) : lexeme.openBehind level = level := by
  unfold openBehind
  split <;> simp_all

/-- As many parentheses are open at a stage as have been opened and not closed. -/
theorem openBehind_of_next? (h : stage.next? lexeme = some next) :
    lexeme.openBehind stage.opened.length = next.opened.length := by
  obtain ⟨opened, due, raised⟩ := stage
  by_cases hopening : lexeme = .punctuation '('
  · subst hopening
    cases due with
    | true =>
        cases h
        rfl
    | false => cases h
  by_cases hclosing : lexeme = .punctuation ')'
  · subst hclosing
    cases due with
    | true => cases h
    | false =>
        cases opened with
        | nil => cases h
        | cons outer others =>
            cases h
            rfl
  have hsame : next.opened = opened := by
    unfold next? at h
    grind [Option.map_eq_some_iff]
  rw [openBehind_of_ne hopening hclosing, hsame]

/-- How deep parentheses nest from a stage that passes a token on. -/
theorem deepest_passed_cons (h : stage.next? token.lexeme = some next) :
    deepest stage.opened.length ((stage.passed (token :: rest)).map Token.lexeme) =
      max stage.opened.length
        (deepest next.opened.length ((next.passed rest).map Token.lexeme)) := by
  rw [passed_cons_of_some h, List.map_cons, deepest, openBehind_of_next? h]

/-- A limit that the tokens passed keep to makes no difference. -/
theorem stop?_of_admits
    (h : limit.Admits (deepest stage.opened.length ((stage.passed tokens).map Token.lexeme))) :
    stage.stop? limit tokens = stage.stop? none tokens := by
  induction tokens generalizing stage with
  | nil => rfl
  | cons token rest ih =>
      cases hnext : stage.next? token.lexeme with
      | none => rw [stop?_cons_of_none hnext, stop?_cons_of_none hnext]
      | some next =>
          rw [deepest_passed_cons hnext] at h
          have hrest := (Allowance.admits_max.1 h).2
          have hadmits : Allowance.Admits none next.opened.length := trivial
          rw [stop?_cons_of_some hnext (admits_of_le hrest (le_deepest _ _)),
            stop?_cons_of_some hnext hadmits, ih hrest]

/-- A limit that the tokens passed do not keep to stops them, whatever comes behind. -/
theorem exists_deepNesting (hstage : limit.Admits stage.opened.length)
    (h : ¬ limit.Admits (deepest stage.opened.length ((stage.passed tokens).map Token.lexeme))) :
    ∃ stop, stage.stop? limit tokens = some stop ∧ stop.obstacle = .deepNesting := by
  induction tokens generalizing stage with
  | nil => exact absurd hstage h
  | cons token rest ih =>
      cases hnext : stage.next? token.lexeme with
      | none =>
          rw [passed_cons_of_none hnext] at h
          exact absurd hstage h
      | some next =>
          rw [deepest_passed_cons hnext] at h
          by_cases hdeeper : limit.Admits next.opened.length
          · have hrest := fun hrest ↦ h (Allowance.admits_max.2 ⟨hstage, hrest⟩)
            rw [stop?_cons_of_some hnext hdeeper]
            exact ih hdeeper hrest
          · exact ⟨_, stop?_cons_of_deep hnext hdeeper, rfl⟩

/-- Where an operand is due, any number of opening parentheses may come. -/
theorem passed_of_openings (hdue : stage.due)
    (h : ∀ token ∈ tokens, token.lexeme = .punctuation '(') : stage.passed tokens = tokens := by
  induction tokens generalizing stage with
  | nil => rfl
  | cons token rest ih =>
      obtain ⟨hopening, hrest⟩ := List.forall_mem_cons.1 h
      have hnext : stage.next? token.lexeme = some ⟨stage.raised :: stage.opened, true, false⟩ := by
        rw [hopening]
        exact if_pos hdue
      rw [passed_cons_of_some hnext, ih rfl hrest]

/-- Behind opening parentheses, all of them are open. -/
theorem deepest_openings (level count : Nat) :
    deepest level (List.replicate count (.punctuation '(')) = level + count := by
  induction count generalizing level with
  | zero => rfl
  | succ count ih =>
      rw [List.replicate_succ, deepest, openBehind, ih]
      omega

end Stage

namespace Expression

variable {limit : Allowance} {line : String} {tokens before : List Token}

/-- Reading without a limit gets past these tokens before it stops, or past all if it does not. -/
def Passes (tokens before : List Token) : Prop :=
  match ofTokens none tokens with
  | .ok _ => before = tokens
  | .error stop => before ++ stop.remaining = tokens

/-- Reading without a limit gets past the tokens that may come one behind the other. -/
theorem passes_iff : Passes tokens before ↔ before = Stage.start.passed tokens := by
  have hpassed := @Stage.passed_append .start tokens
  rw [stop?_ofTokens] at hpassed
  unfold Passes
  cases hread : ofTokens none tokens with
  | ok expression =>
      rw [hread] at hpassed
      rw [hpassed]
  | error stop =>
      rw [hread] at hpassed
      constructor
      · intro h
        exact List.append_cancel_right (h.trans hpassed.symm)
      · rintro rfl
        exact hpassed

/-- If a limit does not change where tokens stop, it does not change what they are read as. -/
theorem ofTokens_eq_of_stop? (hformed : ∀ token ∈ tokens, token.lexeme.WellFormed)
    (h : Stage.start.stop? limit tokens = Stage.start.stop? none tokens) :
    ofTokens limit tokens = ofTokens none tokens := by
  cases hread : ofTokens limit tokens with
  | error stop => exact (ofTokens_eq_error_iff.2 (h ▸ ofTokens_eq_error_iff.1 hread)).symm
  | ok expression =>
      -- The tree is the one that the grammar derives, with and without a limit.
      obtain ⟨hderives, -⟩ := derives_of_ofTokens hformed hread
      have hadmits : Allowance.Admits none expression.nesting := trivial
      exact (ofTokens_of_derives hderives hadmits).symm

/-- Under a limit that the tokens passed keep to, a line is read as without it. -/
theorem ofLine_of_admits (hsignificant : (Lexed.ofString line).significant = .ok tokens)
    (hpasses : Passes tokens before)
    (h : limit.Admits (deepest 0 (before.map Token.lexeme))) :
    ofLine limit line = ofLine none line := by
  rw [passes_iff.1 hpasses] at h
  have hformed (token : Token) (hmem : token ∈ tokens) : token.lexeme.WellFormed :=
    (Lexed.significant_wellFormed hsignificant token hmem).1
  rw [ofLine_of_significant hsignificant, ofLine_of_significant hsignificant,
    ofTokens_eq_of_stop? hformed (Stage.stop?_of_admits h)]

/-- Under a limit that the tokens passed do not keep to, a line nests too deep. -/
theorem ofLine_of_not_admits (hsignificant : (Lexed.ofString line).significant = .ok tokens)
    (hpasses : Passes tokens before)
    (h : ¬ limit.Admits (deepest 0 (before.map Token.lexeme))) :
    ofLine limit line = .error (.grammatical ⟨.after line.toList, .deepNesting⟩) := by
  rw [passes_iff.1 hpasses] at h
  have hstart : limit.Admits Stage.start.opened.length := limit.admits_zero
  obtain ⟨stop, hstop, hnesting⟩ := Stage.exists_deepNesting hstart h
  exact ofLine_eq_error_iff.2
    ⟨tokens, stop, hsignificant, hstop, Stop.toSyntaxError_of_deepNesting hnesting⟩

end Expression

/-- A line that cannot be cut into tokens is a lexical error, however it nests. Of any other line,
take the tokens that reading without a limit gets past. If at most 200 parentheses are open at a
time among these, the line is read as without a limit, or not for the same reason; if 1000 are, it
nests too deep, and is reported to at its end, whatever comes behind these tokens. -/
theorem ofString_nesting (line : String) :
    (∀ error, (Lexed.ofString line).significant = .error error →
      Expression.ofString line = .error (.lexical error)) ∧
    ∀ tokens, (Lexed.ofString line).significant = .ok tokens →
      (∃ before, Expression.Passes tokens before) ∧
      ∀ before, Expression.Passes tokens before →
        (deepest 0 (before.map Token.lexeme) ≤ 200 →
          Expression.ofString line = Expression.ofLine none line) ∧
        (1000 ≤ deepest 0 (before.map Token.lexeme) →
          (Expression.ofString line).mapError ReadingError.report =
            .error (.grammatical (Position.after line.toList).place "shallower nesting"
              "too many nested parentheses")) := by
  refine ⟨fun error herror ↦ ?_, fun tokens hsignificant ↦ ⟨⟨_, Expression.passes_iff.2 rfl⟩, ?_⟩⟩
  · rw [Expression.ofString, Expression.ofLine, herror]
  intro before hpasses
  constructor
  · intro hshallow
    have hadmits : Allowance.Admits (some Reading.maxNesting)
        (deepest 0 (before.map Token.lexeme)) :=
      Nat.le_trans hshallow (by decide)
    exact Expression.ofLine_of_admits hsignificant hpasses hadmits
  · intro hdeep
    have hnot : ¬ Allowance.Admits (some Reading.maxNesting)
        (deepest 0 (before.map Token.lexeme)) :=
      Nat.not_le.2 (Nat.lt_of_lt_of_le (by decide) hdeep)
    rw [Expression.ofString, Expression.ofLine_of_not_admits hsignificant hpasses hnot]
    rfl

/-- In `(1 + 2) 3 ((` one parenthesis is open at a time before the error, so the two behind it do
not matter. A thousand opening parentheses nest too deep. -/
theorem ofString_nesting_openings :
    let line := "(1 + 2) 3 (("
    let deep := String.ofList (spaced (List.replicate 1000 (.punctuation '(')))
    (∃ tokens before, ((Lexed.ofString line).significant = .ok tokens ∧
        Expression.Passes tokens before ∧ deepest 0 (before.map Token.lexeme) ≤ 200) ∧
      Expression.ofString line = Expression.ofLine none line) ∧
    ∃ tokens, ((Lexed.ofString deep).significant = .ok tokens ∧
        Expression.Passes tokens tokens ∧ 1000 ≤ deepest 0 (tokens.map Token.lexeme)) ∧
      (Expression.ofString deep).mapError ReadingError.report =
        .error (.grammatical (Position.after deep.toList).place "shallower nesting"
          "too many nested parentheses") := by
  intro line deep
  constructor
  · let before : List Token :=
      [⟨.punctuation '(', ⟨0, 1, 1⟩⟩, ⟨.number "1", ⟨1, 1, 2⟩⟩, ⟨.punctuation '+', ⟨3, 1, 4⟩⟩,
        ⟨.number "2", ⟨5, 1, 6⟩⟩, ⟨.punctuation ')', ⟨6, 1, 7⟩⟩]
    let behind : List Token :=
      [⟨.number "3", ⟨8, 1, 9⟩⟩, ⟨.punctuation '(', ⟨10, 1, 11⟩⟩, ⟨.punctuation '(', ⟨11, 1, 12⟩⟩]
    have hsignificant : (Lexed.ofString line).significant = .ok (before ++ behind) := by
      decide +kernel
    have hpasses : Expression.Passes (before ++ behind) before :=
      Expression.passes_iff.2 (by decide)
    have hshallow : deepest 0 (before.map Token.lexeme) ≤ 200 := by decide
    exact ⟨before ++ behind, before, ⟨hsignificant, hpasses, hshallow⟩,
      (((ofString_nesting line).2 _ hsignificant).2 before hpasses).1 hshallow⟩
  · have hformed : ∀ lexeme ∈ List.replicate 1000 (Lexeme.punctuation '('),
        lexeme.WellFormed ∧ lexeme.isSignificant := by
      intro lexeme hmem
      obtain rfl := List.eq_of_mem_replicate hmem
      exact ⟨by rw [WellFormed]; decide, rfl⟩
    have hsays : (Lexed.ofString deep).Says (List.replicate 1000 (.punctuation '(')) := by
      rw [Lexed.ofString, String.toList_ofList]
      exact Lexed.scan_spaced _ hformed .start
    obtain ⟨tokens, hsignificant, htokens⟩ := Lexed.says_iff.1 hsays
    have hopenings : ∀ token ∈ tokens, token.lexeme = .punctuation '(' := by
      intro token hmem
      exact List.eq_of_mem_replicate (htokens ▸ List.mem_map_of_mem hmem)
    have hpasses : Expression.Passes tokens tokens :=
      Expression.passes_iff.2 (Stage.passed_of_openings rfl hopenings).symm
    have hdeep : 1000 ≤ deepest 0 (tokens.map Token.lexeme) := by
      rw [htokens, Stage.deepest_openings]
    exact ⟨tokens, ⟨hsignificant, hpasses, hdeep⟩,
      (((ofString_nesting deep).2 _ hsignificant).2 tokens hpasses).2 hdeep⟩

end DiceArithmetic
