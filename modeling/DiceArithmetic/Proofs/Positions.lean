import DiceArithmetic.Proofs.Lexing.Tokenization
import DiceArithmetic.Proofs.Grammar.Viability

/-!
# Positions are true

Tokens and errors have a line and a column beside their offset. They are kept while the text is cut,
each token's from the one before it; `Position.IsOf` says what they have to be, by counting the line
feeds of the text and looking for the last of them. `Position.after_isOf` is the link, since moving
on from token to token leads to the place behind all that has been passed. `ofString_positions` puts
together what holds of a line: its tokens, its lexical error and its syntax error all say where they
stand, and what stands there.
-/

namespace DiceArithmetic

/-- The place of the last line feed before an offset, or the place before the text if there is no
line feed. -/
structure LastBreak (text : List Char) (offset : Nat) (place : Int) : Prop where
  lt : place < offset
  stands : place = -1 ∨ ∃ index : Nat, place = index ∧ text[index]? = some '\n'
  last : ∀ index : Nat, place < index → index < offset → text[index]? ≠ some '\n'

namespace LastBreak

variable {lines run rest : List Char}

theorem of_not_mem (hrun : '\n' ∉ run) : LastBreak (run ++ rest) run.length (-1) where
  lt := by omega
  stands := .inl rfl
  last index _ hindex := by
    rw [List.getElem?_append_left hindex]
    exact fun hbreak ↦ hrun (List.mem_of_getElem? hbreak)

theorem of_last_break (hrun : '\n' ∉ run) :
    LastBreak (lines ++ '\n' :: run ++ rest) (lines ++ '\n' :: run).length lines.length where
  lt := by
    rw [List.length_append, List.length_cons]
    omega
  stands := .inr ⟨lines.length, rfl, by simp⟩
  last index hplace hindex := by
    obtain ⟨beyond, rfl⟩ := Nat.exists_eq_add_of_lt (Int.ofNat_lt.1 hplace)
    rw [List.getElem?_append_left hindex, Nat.add_assoc, getElem?_length_add,
      List.getElem?_cons_succ]
    exact fun hbreak ↦ hrun (List.mem_of_getElem? hbreak)

end LastBreak

namespace Position

/-- The position has the line and the column that its offset has in the text. -/
structure IsOf (position : Position) (text : List Char) : Prop where
  offset_le : position.offset ≤ text.length
  line_eq : position.line = 1 + (text.take position.offset).count '\n'
  column_eq : ∃ place, LastBreak text position.offset place ∧
    (position.column : Int) = position.offset - place

/-- The place behind a piece of text, found from the number of its line feeds and from what is
behind the last of them. -/
def behind (position : Position) (piece : List Char) : Position where
  offset := position.offset + piece.length
  line := position.line + piece.count '\n'
  column :=
    if '\n' ∈ piece then piece.reverse.idxOf '\n' + 1 else position.column + piece.length

section Breaks

variable {lines run : List Char}

/-- A text with a line feed has a last one. -/
theorem exists_last_break {text : List Char} (h : '\n' ∈ text) :
    ∃ lines run, text = lines ++ '\n' :: run ∧ '\n' ∉ run := by
  obtain ⟨run, lines, htext, hrun⟩ := List.eq_append_cons_of_mem (List.mem_reverse.2 h)
  refine ⟨lines.reverse, run.reverse, ?_, mt List.mem_reverse.1 hrun⟩
  rw [← text.reverse_reverse, htext]
  simp

theorem idxOf_last_break (hrun : '\n' ∉ run) :
    (lines ++ '\n' :: run).reverse.idxOf '\n' = run.length := by
  rw [List.reverse_append, List.reverse_cons, List.append_assoc,
    List.idxOf_append_of_notMem (mt List.mem_reverse.1 hrun), List.singleton_append,
    List.idxOf_cons_self, List.length_reverse, Nat.add_zero]

theorem column_behind_break (position : Position) (hrun : '\n' ∉ run) :
    (position.behind (lines ++ '\n' :: run)).column = run.length + 1 := by
  have hmem : '\n' ∈ lines ++ '\n' :: run := by simp
  rw [behind, if_pos hmem, idxOf_last_break hrun]

theorem column_behind_run (position : Position) (hrun : '\n' ∉ run) :
    (position.behind run).column = position.column + run.length := by
  rw [behind, if_neg hrun]

end Breaks

/-- Moving over a piece of text character by character leads to the place behind it. -/
theorem advance_eq_behind (position : Position) (piece : List Char) :
    position.advance piece = position.behind piece := by
  -- By the last character: only a line feed there changes where the last one is.
  induction piece using List.reverseRecOn with
  | nil => rfl
  | append_singleton piece character ih =>
      rw [advance_append, ih]
      by_cases hbreak : character = '\n'
      · subst hbreak
        simp [advance, next, behind, Nat.add_assoc]
      · have hother : '\n' ≠ character := Ne.symm hbreak
        by_cases hmem : '\n' ∈ piece <;>
          simp [advance, next, behind, hbreak, hother, hmem, List.idxOf_cons_ne, Nat.add_assoc]

/-- The place behind the front of a text has the line and the column of its offset in the text. -/
theorem after_isOf (front rest : List Char) : (after front).IsOf (front ++ rest) where
  offset_le := by
    show front.length ≤ _
    rw [List.length_append]
    exact Nat.le_add_right _ _
  line_eq := by
    show front.count '\n' + 1 = 1 + ((front ++ rest).take front.length).count '\n'
    rw [List.take_left, Nat.add_comm]
  column_eq := by
    show ∃ place, LastBreak _ front.length place ∧ _ = (front.length : Int) - place
    rw [← advance_start, advance_eq_behind]
    by_cases hmem : '\n' ∈ front
    · obtain ⟨lines, run, rfl, hrun⟩ := exists_last_break hmem
      refine ⟨lines.length, .of_last_break hrun, ?_⟩
      rw [column_behind_break start hrun, List.length_append, List.length_cons]
      push_cast
      omega
    · refine ⟨-1, .of_not_mem hmem, ?_⟩
      rw [column_behind_run start hmem]
      show ((1 + front.length : Nat) : Int) = front.length - -1
      omega

theorem after_isOf_self (text : List Char) : (after text).IsOf text := by
  simpa using after_isOf text []

end Position

namespace Lexed

variable {position : Position} {text : List Char} {line : String}

/-- Behind the last token stands the error, or else the end of the text. -/
theorem behind_last_scan :
    ((scan position text).tokens.getLast?.map fun token ↦
        token.start.behind token.lexeme.text.toList).getD position =
      ((scan position text).error?.map LexicalError.position).getD (position.advance text) := by
  fun_induction scan position text with
  | case1 position text lexeme rest hfirst hshorter ih =>
      rw [Lexeme.first?_eq_append hfirst, Position.advance_append]
      refine Eq.trans ?_ ih
      -- The first token is the last one only if none is behind it.
      show ((⟨lexeme, position⟩ :: (scan _ rest).tokens).getLast?.map _).getD position = _
      rw [List.getLast?_cons]
      cases (scan (position.advance lexeme.text.toList) rest).tokens.getLast? with
      | none => exact (position.advance_eq_behind _).symm
      | some last => rfl
  | case2 position text hfirst => cases text <;> rfl

/-- A token of a line stands at the place that it says, and its text is what stands there. -/
theorem start_isOf {token : Token} (hmem : token ∈ (ofString line).tokens) :
    token.start.IsOf line.toList ∧
      (line.toList.drop token.start.offset).take token.lexeme.text.length =
        token.lexeme.text.toList := by
  obtain ⟨front, rest, hline, hstart⟩ := exists_around_of_mem_scan token hmem
  rw [Position.advance_start] at hstart
  rw [hstart, hline]
  refine ⟨Position.after_isOf front _, ?_⟩
  show List.take _ (List.drop front.length _) = _
  rw [List.drop_left, ← String.length_toList, List.take_left]

/-- An error stands at the place that it says, which is the first to offend, and the character that
it names is what stands there. -/
theorem error_isOf {error : LexicalError} (herror : (ofString line).error? = some error) :
    error.position.IsOf line.toList ∧ OffendsFirst line.toList error.position.offset ∧
      line.toList[error.position.offset]? = some error.character := by
  obtain ⟨offset, hfirst, hstands, hposition⟩ := scan_error?_eq_some_iff.1 herror
  have hoffset : offset ≤ line.toList.length :=
    Nat.le_of_lt (List.getElem?_eq_some_iff.1 hstands).choose
  rw [Position.advance_start] at hposition
  have hsame : error.position.offset = offset := by
    rw [hposition]
    exact List.length_take_of_le hoffset
  refine ⟨?_, hsame.symm ▸ hfirst, hsame.symm ▸ hstands⟩
  rw [hposition]
  simpa using Position.after_isOf (line.toList.take offset) (line.toList.drop offset)

end Lexed

namespace Expression

/-- A line cannot be cut into tokens just when that is said of it on reading. -/
theorem ofLine_eq_lexical_iff {limit : Allowance} {line : String} {error : LexicalError} :
    ofLine limit line = .error (.lexical error) ↔ (Lexed.ofString line).error? = some error := by
  rw [ofLine, Lexed.significant]
  cases (Lexed.ofString line).error? with
  | some other => simp
  | none =>
      dsimp only
      cases ofTokens limit ((Lexed.ofString line).tokens.filter (·.lexeme.isSignificant)) <;>
        simp [Except.mapError]

end Expression

/-- What is said to have been found is the lexeme: its text between quotes, or the number of its
digits if these are too many. -/
def Obstacle.Shows (obstacle : Obstacle) (lexeme : Lexeme) : Prop :=
  obstacle.found = Text.quoted lexeme.text ∨
    lexeme.isLong ∧ obstacle.found = s!"{lexeme.text.length} digits"

/-- A stage that refuses a token complains about that token. -/
theorem Stage.objection_shows {stage : Stage} {token : Token} {rest : List Token}
    (hrefuses : stage.Refuses (token :: rest)) :
    (stage.objection (token :: rest)).obstacle.Shows token.lexeme := by
  rw [obstacle_objection hrefuses]
  split
  next h => exact .inr ⟨h.2, rfl⟩
  next => exact .inl rfl

/-- Where an expression has come to no end, the end of the line is what a stage complains about. -/
theorem Stage.found_objection_nil (stage : Stage) :
    (stage.objection []).obstacle.found = "end of input" := by
  unfold objection
  cases stage.due <;> rfl

section Errors

variable {line : String} {error : SyntaxError}

/-- An error about nesting is at the end of the line. -/
theorem position_of_deepNesting (herror : Expression.ofString line = .error (.grammatical error))
    (hnesting : error.obstacle = .deepNesting) : error.position = .after line.toList := by
  obtain ⟨tokens, stop, -, -, rfl⟩ := Expression.ofLine_eq_error_iff.1 herror
  rw [Stop.obstacle_toSyntaxError] at hnesting
  rw [Stop.toSyntaxError_of_deepNesting hnesting]

/-- Any other syntax error is at the end of the line, or at a token that says something, and shows
which. -/
theorem position_of_not_deepNesting
    (herror : Expression.ofString line = .error (.grammatical error))
    (hnesting : error.obstacle ≠ .deepNesting) :
    (error.position = .after line.toList ∧ error.obstacle.found = "end of input") ∨
      ∃ token ∈ (Lexed.ofString line).tokens, token.lexeme.isSignificant ∧
        error.position = token.start ∧ error.obstacle.Shows token.lexeme := by
  obtain ⟨tokens, stop, hsignificant, -⟩ := Expression.ofLine_eq_error_iff.1 herror
  obtain ⟨before, remaining, stage, rfl, -, hrefuses, hobstacle, hposition⟩ :=
    exists_begins hsignificant herror hnesting
  rw [hobstacle]
  cases remaining with
  | nil => exact .inl ⟨hposition, stage.found_objection_nil⟩
  | cons token rest =>
      obtain ⟨-, htokens⟩ := Lexed.significant_eq_ok_iff.1 hsignificant
      have hmem : token ∈ before ++ token :: rest := by simp
      rw [htokens] at hmem
      obtain ⟨hscanned, hsays⟩ := List.mem_filter.1 hmem
      exact .inr ⟨token, hscanned, hsays, hposition, Stage.objection_shows hrefuses⟩

/-- A syntax error stands at the place that it says. -/
theorem SyntaxError.isOf (herror : Expression.ofString line = .error (.grammatical error)) :
    error.position.IsOf line.toList := by
  by_cases hnesting : error.obstacle = .deepNesting
  · rw [position_of_deepNesting herror hnesting]
    exact Position.after_isOf_self line.toList
  · rcases position_of_not_deepNesting herror hnesting with
      ⟨hposition, -⟩ | ⟨token, hmem, -, hposition, -⟩
    · rw [hposition]
      exact Position.after_isOf_self line.toList
    · rw [hposition]
      exact (Lexed.start_isOf hmem).1

end Errors

/-- Every place that is reported is true. A token stands where its text stands in the line; behind
the last token, as counted from token to token, stands the end of the line or the character that
begins no token. That one is what a lexical error names, and it is reported in the same way on
reading. A syntax error other than about nesting is at the end of the line, or at a token that says
something, and that is the token it says it found. -/
theorem ofString_positions (line : String) :
    (∀ token ∈ (Lexed.ofString line).tokens, token.start.IsOf line.toList ∧
      (line.toList.drop token.start.offset).take token.lexeme.text.length =
        token.lexeme.text.toList) ∧
    ((Lexed.ofString line).tokens.getLast?.map fun token ↦
        token.start.behind token.lexeme.text.toList).getD .start =
      ((Lexed.ofString line).error?.map LexicalError.position).getD (.after line.toList) ∧
    (∀ error, (Lexed.ofString line).error? = some error →
      error.position.IsOf line.toList ∧ OffendsFirst line.toList error.position.offset ∧
        line.toList[error.position.offset]? = some error.character) ∧
    (∀ error, Expression.ofString line = .error (.lexical error) ↔
      (Lexed.ofString line).error? = some error) ∧
    ∀ error, Expression.ofString line = .error (.grammatical error) →
      error.position.IsOf line.toList ∧
        (error.obstacle ≠ .deepNesting →
          (error.position = .after line.toList ∧ error.obstacle.found = "end of input") ∨
          ∃ token ∈ (Lexed.ofString line).tokens, token.lexeme.isSignificant ∧
            error.position = token.start ∧ error.obstacle.Shows token.lexeme) := by
  refine ⟨fun token hmem ↦ Lexed.start_isOf hmem, ?_, fun error herror ↦ Lexed.error_isOf herror,
    fun error ↦ Expression.ofLine_eq_lexical_iff,
    fun error herror ↦ ⟨SyntaxError.isOf herror, position_of_not_deepNesting herror⟩⟩
  rw [← Position.advance_start]
  exact Lexed.behind_last_scan

/-- In a line whose comment spans three lines, the comma behind the comment is in the third of them,
in the first column, and a syntax error shows it. -/
theorem ofString_positions_comment :
    let line := "1;é\né\n,"
    let error : SyntaxError := ⟨⟨6, 3, 1⟩, .unexpected .operator (some (.punctuation ','))⟩
    (Expression.ofString line = .error (.grammatical error) ∧ error.obstacle ≠ .deepNesting) ∧
      error.position.IsOf line.toList ∧
      ∃ token ∈ (Lexed.ofString line).tokens, token.lexeme.isSignificant ∧
        error.position = token.start ∧ error.obstacle.Shows token.lexeme := by
  intro line error
  have herror : Expression.ofString line = .error (.grammatical error) := by decide +kernel
  have hnesting : error.obstacle ≠ .deepNesting := nofun
  obtain ⟨hplace, hstands⟩ := (ofString_positions line).2.2.2.2 error herror
  refine ⟨⟨herror, hnesting⟩, hplace, (hstands hnesting).resolve_left fun hend ↦ ?_⟩
  exact absurd hend.2 (by decide +kernel)

end DiceArithmetic
