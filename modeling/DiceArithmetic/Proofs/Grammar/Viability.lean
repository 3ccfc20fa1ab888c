import DiceArithmetic.Proofs.Grammar.Stages
import DiceArithmetic.Proofs.NormalForm.Lexemes
import DiceArithmetic.Report

/-!
# Syntax errors stand at the first token that cannot be right

Lexemes are accepted if some line that says them is read, and viable if they can be gone on with so
that they are accepted. The lexemes before a syntax error are viable, and with the one at the error
they are not; at the end of a line they are viable but not accepted. Stages settle all this: what
can be said of the lexemes read so far depends on the stage that they lead to, see
`Begins.accepted_append_iff`. So does what is said to be expected.
-/

namespace DiceArithmetic

/-- Some line that says these lexemes is read. -/
def Accepted (lexemes : List Lexeme) : Prop :=
  ∃ line expression,
    Expression.ofString line = .ok expression ∧ (Lexed.ofString line).Says lexemes

/-- Some line that says these lexemes, and possibly more behind them, is read. -/
def Viable (lexemes : List Lexeme) : Prop :=
  ∃ rest, Accepted (lexemes ++ rest)

/-- So many closing parentheses. -/
def Lexeme.closings (count : Nat) : List Lexeme :=
  List.replicate count (.punctuation ')')

/-- Whether the lexeme is a number with more digits than can be read. -/
def Lexeme.isLong : Lexeme → Bool
  | .number digits => Reading.maxDigits < digits.length
  | .identifier _ | .punctuation _ | .comment _ | .whitespace _ => false

/-- The lexemes as tokens. All are put at the start of a line, since it does not matter to what they
are read as where tokens stand. -/
def Lexeme.placed (lexemes : List Lexeme) : List Token :=
  lexemes.map (⟨·, .start⟩)

theorem Lexeme.map_lexeme_placed (lexemes : List Lexeme) :
    (placed lexemes).map Token.lexeme = lexemes := by
  simp [placed, Function.comp_def]

theorem Lexeme.placed_closings_succ (count : Nat) :
    placed (closings (count + 1)) = ⟨.punctuation ')', .start⟩ :: placed (closings count) :=
  rfl

theorem Lexeme.closings_wellFormed (count : Nat) :
    ∀ lexeme ∈ closings count, lexeme.WellFormed ∧ lexeme.isSignificant := by
  intro lexeme hmem
  obtain rfl := List.eq_of_mem_replicate hmem
  exact ⟨by rw [WellFormed]; decide, rfl⟩

namespace Accepted

variable {lexemes : List Lexeme} {tokens : List Token}

theorem wellFormed (h : Accepted lexemes) :
    ∀ lexeme ∈ lexemes, lexeme.WellFormed ∧ lexeme.isSignificant := by
  obtain ⟨line, expression, -, hsays⟩ := h
  exact hsays.wellFormed

/-- Lexemes are accepted if going through them does not stop. -/
theorem of_stop? (hformed : ∀ lexeme ∈ lexemes, lexeme.WellFormed ∧ lexeme.isSignificant)
    (htokens : tokens.map Token.lexeme = lexemes)
    (hstop : Stage.start.stop? (some Reading.maxNesting) tokens = none) : Accepted lexemes := by
  subst htokens
  obtain ⟨expression, hread⟩ := Expression.exists_ofTokens_eq_ok_iff.2 hstop
  have hwellFormed (token : Token) (hmem : token ∈ tokens) : token.lexeme.WellFormed :=
    (hformed _ (List.mem_map_of_mem hmem)).1
  obtain ⟨hderives, hadmits⟩ := Expression.derives_of_ofTokens hwellFormed hread
  have hsays : (Lexed.ofString (String.ofList (Lexeme.spaced (tokens.map Token.lexeme)))).Says
      (tokens.map Token.lexeme) := by
    rw [Lexed.ofString, String.toList_ofList]
    exact Lexed.scan_spaced _ hformed .start
  obtain ⟨written, hsignificant, hlexemes⟩ := Lexed.says_iff.1 hsays
  refine ⟨_, expression, ?_, hsays⟩
  exact Expression.ofLine_eq_ok_iff.2 ⟨written, hsignificant, hlexemes ▸ hderives, hadmits⟩

/-- Going through accepted lexemes does not stop. -/
theorem stop?_eq_none (h : Accepted lexemes) (htokens : tokens.map Token.lexeme = lexemes) :
    Stage.start.stop? (some Reading.maxNesting) tokens = none := by
  subst htokens
  obtain ⟨line, expression, hread, hsays⟩ := h
  obtain ⟨said, hsignificant, hderives, hadmits⟩ := Expression.ofLine_eq_ok_iff.1 hread
  have hsame := hsays.unique (Lexed.says_iff.2 ⟨said, hsignificant, rfl⟩)
  rw [← hsame] at hderives
  exact Expression.exists_ofTokens_eq_ok_iff.1
    ⟨expression, Expression.ofTokens_of_derives hderives hadmits⟩

end Accepted

namespace Stage

variable {limit : Allowance} {stage : Stage}

theorem admits_of_le {deep less : Nat} (h : limit.Admits deep) (hle : less ≤ deep) :
    limit.Admits less := by
  cases limit with
  | none => trivial
  | some levels => exact Nat.le_trans hle h

/-- Behind an operand, closing parentheses make an expression just when they close all that are
open. -/
theorem stop?_closings_iff (hdue : stage.due = false) (hadmits : limit.Admits stage.opened.length)
    (count : Nat) :
    stage.stop? limit (Lexeme.placed (Lexeme.closings count)) = none ↔
      count = stage.opened.length := by
  induction count generalizing stage with
  | zero =>
      show (if stage.IsComplete then none else _) = none ↔ 0 = stage.opened.length
      rw [eq_comm (b := stage.opened.length), List.length_eq_zero_iff]
      simp [IsComplete, hdue]
  | succ count ih =>
      cases hopened : stage.opened with
      | nil =>
          have hnone : stage.next? (.punctuation ')') = none := by
            simp [next?, hdue, hopened]
          rw [Lexeme.placed_closings_succ, stop?_cons_of_none hnone]
          simp
      | cons outer others =>
          rw [hopened] at hadmits
          have hfewer : limit.Admits others.length := admits_of_le hadmits (Nat.le_succ _)
          rw [Lexeme.placed_closings_succ,
            stop?_cons_of_some (next?_closing hdue hopened) hfewer, ih rfl hfewer]
          exact Nat.succ_inj.symm

/-- Where an operand is due, closing parentheses make no expression. -/
theorem stop?_closings_of_due (hdue : stage.due) (count : Nat) :
    stage.stop? limit (Lexeme.placed (Lexeme.closings count)) ≠ none := by
  have hrefuses : stage.Refuses (Lexeme.placed (Lexeme.closings count)) := by
    cases count with
    | zero =>
        intro hcomplete
        rw [hcomplete.1] at hdue
        cases hdue
    | succ count =>
        show stage.next? (.punctuation ')') = none
        simp [next?, hdue]
  rw [stop?_of_refuses hrefuses]
  exact Option.some_ne_none _

end Stage

/-- A line may begin with these tokens, and they lead to this stage. -/
structure Begins (before : List Token) (stage : Stage) : Prop where
  wellFormed : ∀ token ∈ before, token.lexeme.WellFormed ∧ token.lexeme.isSignificant
  leads : Stage.start.LeadsTo (some Reading.maxNesting) before stage

namespace Begins

open Lexeme

variable {before : List Token} {stage : Stage}

/-- Whether more lexemes make the first ones an accepted expression depends on the stage only. -/
theorem accepted_append_iff (h : Begins before stage) {rest : List Lexeme} :
    Accepted (before.map Token.lexeme ++ rest) ↔
      (∀ lexeme ∈ rest, lexeme.WellFormed ∧ lexeme.isSignificant) ∧
        stage.stop? (some Reading.maxNesting) (placed rest) = none := by
  have htokens : (before ++ placed rest).map Token.lexeme = before.map Token.lexeme ++ rest := by
    rw [List.map_append, map_lexeme_placed]
  rw [← h.leads.stop?_append]
  constructor
  · intro haccepted
    exact ⟨(List.forall_mem_append.1 haccepted.wellFormed).2, haccepted.stop?_eq_none htokens⟩
  · rintro ⟨hformed, hstop⟩
    refine .of_stop? (List.forall_mem_append.2 ⟨?_, hformed⟩) htokens hstop
    exact List.forall_mem_map.2 h.wellFormed

/-- What has been read is accepted just when an expression has come to its end. -/
theorem accepted_iff (h : Begins before stage) :
    Accepted (before.map Token.lexeme) ↔ stage.IsComplete := by
  rw [← List.append_nil (before.map Token.lexeme), h.accepted_append_iff]
  show _ ∧ (if stage.IsComplete then none else _) = none ↔ _
  simp

/-- So many closing parentheses make what has been read accepted just when an operand has come to
its end and so many parentheses are open. -/
theorem accepted_closings_iff (h : Begins before stage) {count : Nat} :
    Accepted (before.map Token.lexeme ++ closings count) ↔
      stage.due = false ∧ count = stage.opened.length := by
  rw [h.accepted_append_iff, and_iff_right (closings_wellFormed count)]
  cases hdue : stage.due with
  | true => simp [Stage.stop?_closings_of_due hdue count]
  | false => simp [Stage.stop?_closings_iff hdue h.leads.admits count]

/-- One more token that may come next leads to the next stage. -/
theorem snoc (h : Begins before stage) {token : Token} {next : Stage}
    (hformed : token.lexeme.WellFormed ∧ token.lexeme.isSignificant)
    (hnext : stage.next? token.lexeme = some next)
    (hadmits : Allowance.Admits (some Reading.maxNesting) next.opened.length) :
    Begins (before ++ [token]) next where
  wellFormed := List.forall_mem_append.2 ⟨h.wellFormed, List.forall_mem_singleton.2 hformed⟩
  leads := by
    refine ⟨hadmits, fun rest ↦ ?_⟩
    rw [List.append_assoc, List.singleton_append, h.leads.stop?_append,
      Stage.stop?_cons_of_some hnext hadmits]

/-- Where an operand is due, any name makes one. -/
theorem viable_name (h : Begins before stage) (hdue : stage.due) {name : String}
    (hname : (identifier name).WellFormed) :
    Viable (before.map Token.lexeme ++ [.identifier name]) := by
  have hnext : stage.next? (identifier name) = some { stage with due := false } := by
    rw [Stage.next?, if_pos hdue]
  have hbegins : Begins (before ++ [⟨.identifier name, .start⟩]) { stage with due := false } :=
    h.snoc ⟨hname, rfl⟩ hnext h.leads.admits
  have haccepted := hbegins.accepted_closings_iff.2 ⟨rfl, rfl⟩
  rw [List.map_append] at haccepted
  exact ⟨_, haccepted⟩

/-- What has been read is viable. -/
theorem viable (h : Begins before stage) : Viable (before.map Token.lexeme) := by
  cases hdue : stage.due with
  | false => exact ⟨_, h.accepted_closings_iff.2 ⟨hdue, rfl⟩⟩
  | true =>
      have hname : (identifier "x").WellFormed := ⟨by decide, List.all_eq_true.mp rfl⟩
      obtain ⟨rest, haccepted⟩ := h.viable_name hdue hname
      rw [List.append_assoc] at haccepted
      exact ⟨_, haccepted⟩

/-- With a lexeme that may not come next, what has been read is not viable. -/
theorem not_viable (h : Begins before stage) {lexeme : Lexeme} (hnone : stage.next? lexeme = none) :
    ¬ Viable (before.map Token.lexeme ++ [lexeme]) := by
  rintro ⟨rest, haccepted⟩
  rw [List.append_assoc, List.singleton_append, h.accepted_append_iff] at haccepted
  obtain ⟨-, hstop⟩ := haccepted
  have hrefuses : stage.Refuses (placed (lexeme :: rest)) := hnone
  rw [Stage.stop?_of_refuses hrefuses] at hstop
  cases hstop

end Begins

namespace Stage

variable {stage : Stage} {tokens : List Token}

/-- What a stage says of a token that it refuses: that it is not what was wanted, or that it has too
many digits where a number would do. -/
theorem obstacle_objection {token : Token} {rest : List Token}
    (hrefuses : stage.Refuses (token :: rest)) :
    (stage.objection (token :: rest)).obstacle =
      if stage.due ∧ token.lexeme.isLong then .longNumber token.lexeme.text.length
      else .unexpected stage.wanted (some token.lexeme) := by
  cases hdue : stage.due with
  | false =>
      rw [objection_of_not_due hdue]
      simp [Stop.unexpected]
  | true =>
      cases hlexeme : token.lexeme with
      | number digits =>
          have hlong : Reading.maxDigits < digits.length := by
            simpa [Refuses, hlexeme, next?, hdue] using hrefuses
          simp [objection, hdue, hlexeme, Lexeme.isLong, Lexeme.text, hlong]
      | identifier | punctuation | comment | whitespace =>
          simp [objection, hdue, hlexeme, Lexeme.isLong]

/-- Where an operand is due, that is what is said to be expected, unless a number comes that is too
long for one. -/
theorem expected_of_due (hdue : stage.due) (hrefuses : stage.Refuses tokens) :
    (stage.objection tokens).obstacle.expected =
      if tokens.head?.any (·.lexeme.isLong) then "a number of at most 3000 digits"
      else "number, identifier or \x27(\x27" := by
  have hwanted : stage.wanted = .operand := if_pos hdue
  cases tokens with
  | nil =>
      have hobstacle : (stage.objection []).obstacle = .unexpected .operand none := by
        simp [objection, hwanted]
      rw [hobstacle]
      rfl
  | cons token rest =>
      rw [obstacle_objection hrefuses, List.head?_cons, Option.any_some, hwanted]
      by_cases hlong : token.lexeme.isLong
      · rw [if_pos ⟨hdue, hlong⟩, if_pos hlong]
        rfl
      · rw [if_neg fun h ↦ hlong h.2, if_neg hlong]
        rfl

theorem expected_of_not_due (hdue : stage.due = false) :
    (stage.objection tokens).obstacle.expected =
      if stage.opened = [] then "operator" else "\x27)\x27" := by
  rw [objection_of_not_due hdue, Stop.unexpected, wanted, hdue, if_neg Bool.false_ne_true]
  split <;> rfl

theorem expected_eq_operator_iff (hrefuses : stage.Refuses tokens) :
    (stage.objection tokens).obstacle.expected = "operator" ↔ stage.IsComplete := by
  unfold IsComplete
  cases hdue : stage.due with
  | true =>
      rw [expected_of_due hdue hrefuses]
      split <;> simp
  | false =>
      rw [expected_of_not_due hdue]
      split <;> simp [*]

theorem expected_eq_closing_iff (hrefuses : stage.Refuses tokens) :
    (stage.objection tokens).obstacle.expected = "\x27)\x27" ↔
      stage.due = false ∧ stage.opened ≠ [] := by
  cases hdue : stage.due with
  | true =>
      rw [expected_of_due hdue hrefuses]
      split <;> simp
  | false =>
      rw [expected_of_not_due hdue]
      split <;> simp [*]

end Stage

/-- Unless the nesting is at fault, the tokens before a syntax error lead to a stage that refuses
the others, and the error is its complaint. -/
theorem exists_begins {line : String} {tokens : List Token} {error : SyntaxError}
    (hsignificant : (Lexed.ofString line).significant = .ok tokens)
    (herror : Expression.ofString line = .error (.grammatical error))
    (hnesting : error.obstacle ≠ .deepNesting) :
    ∃ before remaining stage, tokens = before ++ remaining ∧ Begins before stage ∧
      stage.Refuses remaining ∧ error.obstacle = (stage.objection remaining).obstacle ∧
      error.position = (remaining.head?.map Token.start).getD (.after line.toList) := by
  obtain ⟨said, stop, hsaid, hstop, rfl⟩ := Expression.ofLine_eq_error_iff.1 herror
  obtain rfl : said = tokens := Except.ok.inj (hsaid.symm.trans hsignificant)
  rw [Stop.obstacle_toSyntaxError] at hnesting ⊢
  rw [Stop.position_toSyntaxError hnesting]
  have hstart : Allowance.Admits (some Reading.maxNesting) Stage.start.opened.length :=
    Nat.zero_le _
  obtain ⟨before, stage, htokens, hleads, hrefuses, hstop⟩ :=
    Stage.exists_leadsTo_of_stop? hstart hstop hnesting
  refine ⟨before, stop.remaining, stage, htokens, ⟨?_, hleads⟩, hrefuses,
    congrArg Stop.obstacle hstop, rfl⟩
  intro token hmem
  refine Lexed.significant_wellFormed hsignificant token ?_
  rw [htokens]
  exact List.mem_append_left _ hmem

/-- Take a line that can be cut into tokens but not read, unless the nesting is at fault. If the
error is at a token, the lexemes before it are viable, and with the lexeme at the error they no
longer are. If it is at the end of the line, all of them are viable but not accepted. An operator is
said to be expected just when the lexemes before the error are accepted; a closing parenthesis just
when they are not, but are with closing parentheses behind them; otherwise they may go on with any
name, and it is an operand that is said to be expected, or a shorter number if one came that is too
long. -/
theorem ofString_viable {line : String} {tokens : List Token} {error : SyntaxError}
    (hsignificant : (Lexed.ofString line).significant = .ok tokens)
    (herror : Expression.ofString line = .error (.grammatical error))
    (hnesting : error.obstacle ≠ .deepNesting) :
    ∃ before remaining, tokens = before ++ remaining ∧
      (match remaining with
        | token :: _ =>
            error.position = token.start ∧ Viable (before.map Token.lexeme) ∧
              ¬ Viable (before.map Token.lexeme ++ [token.lexeme])
        | [] =>
            error.position = .after line.toList ∧ ¬ Accepted (before.map Token.lexeme) ∧
              ∃ rest ≠ [], Accepted (before.map Token.lexeme ++ rest)) ∧
      (error.obstacle.expected = "operator" ↔ Accepted (before.map Token.lexeme)) ∧
      (error.obstacle.expected = "\x27)\x27" ↔
        ¬ Accepted (before.map Token.lexeme) ∧
          ∃ count ≥ 1, Accepted (before.map Token.lexeme ++ Lexeme.closings count)) ∧
      (error.obstacle.expected ≠ "operator" → error.obstacle.expected ≠ "\x27)\x27" →
        (∀ name, (Lexeme.identifier name).WellFormed →
          Viable (before.map Token.lexeme ++ [.identifier name])) ∧
        error.obstacle.expected =
          if remaining.head?.any (·.lexeme.isLong) then "a number of at most 3000 digits"
          else "number, identifier or \x27(\x27") := by
  obtain ⟨before, remaining, stage, rfl, hbegins, hrefuses, hobstacle, hposition⟩ :=
    exists_begins hsignificant herror hnesting
  refine ⟨before, remaining, rfl, ?_, ?_, ?_, ?_⟩
  · cases remaining with
    | cons token behind => exact ⟨hposition, hbegins.viable, hbegins.not_viable hrefuses⟩
    | nil =>
        have hincomplete : ¬ Accepted (before.map Token.lexeme) :=
          fun haccepted ↦ hrefuses (hbegins.accepted_iff.1 haccepted)
        obtain ⟨rest, haccepted⟩ := hbegins.viable
        refine ⟨hposition, hincomplete, rest, ?_, haccepted⟩
        rintro rfl
        exact hincomplete (by rwa [List.append_nil] at haccepted)
  · rw [hobstacle, Stage.expected_eq_operator_iff hrefuses, hbegins.accepted_iff]
  · rw [hobstacle, Stage.expected_eq_closing_iff hrefuses, hbegins.accepted_iff]
    simp only [hbegins.accepted_closings_iff]
    constructor
    · rintro ⟨hdue, hopened⟩
      exact ⟨fun hcomplete ↦ hopened hcomplete.2, _, List.length_pos_iff.2 hopened, hdue, rfl⟩
    · rintro ⟨-, count, hpositive, hdue, rfl⟩
      exact ⟨hdue, List.length_pos_iff.1 hpositive⟩
  · rw [hobstacle]
    intro hoperator hclosing
    rw [Ne, Stage.expected_eq_operator_iff hrefuses] at hoperator
    rw [Ne, Stage.expected_eq_closing_iff hrefuses] at hclosing
    have hdue : stage.due = true := by
      by_contra hnot
      have hdue := Bool.eq_false_iff.2 hnot
      exact hclosing ⟨hdue, fun hopened ↦ hoperator ⟨hdue, hopened⟩⟩
    exact ⟨fun name hname ↦ hbegins.viable_name hdue hname, Stage.expected_of_due hdue hrefuses⟩

/-- In `2 ^ (x 3` the last number cannot be right. What is before it may go on, and one closing
parenthesis would do. -/
theorem ofString_viable_unclosed :
    let line := "2 ^ (x 3"
    let error : SyntaxError := ⟨⟨7, 1, 8⟩, .unexpected .closing (some (.number "3"))⟩
    ∃ tokens,
      ((Lexed.ofString line).significant = .ok tokens ∧
          Expression.ofString line = .error (.grammatical error) ∧
          error.obstacle ≠ .deepNesting) ∧
        ∃ before token behind, tokens = before ++ token :: behind ∧ error.position = token.start ∧
          Viable (before.map Token.lexeme) ∧
          ¬ Viable (before.map Token.lexeme ++ [token.lexeme]) ∧
          ∃ count ≥ 1, Accepted (before.map Token.lexeme ++ Lexeme.closings count) := by
  intro line error
  let tokens : List Token :=
    [⟨.number "2", ⟨0, 1, 1⟩⟩, ⟨.punctuation '^', ⟨2, 1, 3⟩⟩, ⟨.punctuation '(', ⟨4, 1, 5⟩⟩,
      ⟨.identifier "x", ⟨5, 1, 6⟩⟩, ⟨.number "3", ⟨7, 1, 8⟩⟩]
  have hsignificant : (Lexed.ofString line).significant = .ok tokens := by decide +kernel
  have herror : Expression.ofString line = .error (.grammatical error) := by decide +kernel
  have hnesting : error.obstacle ≠ .deepNesting := nofun
  refine ⟨tokens, ⟨hsignificant, herror, hnesting⟩, ?_⟩
  obtain ⟨before, remaining, htokens, hplace, -, hclosing, -⟩ :=
    ofString_viable hsignificant herror hnesting
  cases remaining with
  | nil => exact absurd hplace.1 (by decide)
  | cons token behind =>
      obtain ⟨hposition, hviable, hnotViable⟩ := hplace
      exact ⟨before, token, behind, htokens, hposition, hviable, hnotViable, (hclosing.1 rfl).2⟩

end DiceArithmetic
